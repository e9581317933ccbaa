import ToolShape.Schema.Derived
import ToolShape.Tool.Catalog
import ToolShape.Tool.Summary
import ToolShape.TypeScript.Declaration
import Std.Data.HashMap

/-!
# Registries

A registry holds tools under their names and remembers the order in which they came. Registering
converts a definition with the registry's converter, from the position its source has reached. No
name is registered twice: the check comes before any suffix is drawn.

Every operation that can change the registry gives a reply: the registry after it, the events in
order, and the result. A reply that fails still carries what was done before the failure.
-/

set_option autoImplicit false

namespace ToolShape

open Tool (Definition Catalog)

/-- Tools by name, in order of registration. -/
structure Registry where
  converter : Converter
  /-- How many suffixes have been drawn. -/
  drawn : Nat
  /-- The names registered, in order. -/
  order : List String
  table : Std.HashMap String Tool

namespace Registry

/-- What an operation on a registry gives. -/
structure Reply (α : Type) where
  registry : Registry
  events : List Event
  result : Except Failure α

/-- A registry without tools. -/
def empty (converter : Converter) : Registry := ⟨converter, 0, [], ∅⟩

/-! ## Views -/

def get? (r : Registry) (name : String) : Option Tool := r.table[name]?

def has (r : Registry) (name : String) : Bool := r.table.contains name

/-- The tools in order of registration. -/
def tools (r : Registry) : List Tool := r.order.filterMap r.get?

def size (r : Registry) : Nat := r.order.length

/-- The records of the tools' arguments. -/
def records (r : Registry) : List RecordShape := r.tools.map Tool.arguments

/-! ## Registering -/

/-- Adds a tool at the end. -/
def insert (r : Registry) (tool : Tool) : Registry :=
  { r with order := r.order ++ [tool.name], table := r.table.insertIfNew tool.name tool }

/-- What adding a tool reports. -/
def insertionEvent (tool : Tool) : Event :=
  .toolRegistered tool.name tool.arguments.name tool.arguments.fields.length

/-- Registers a tool that has been converted already. -/
def registerTool (r : Registry) (tool : Tool) : Reply Tool :=
  if r.has tool.name then ⟨r, [], .error (.alreadyRegistered tool.name)⟩
  else ⟨r.insert tool, [insertionEvent tool], .ok tool⟩

/-- Converts a definition from where the source stands. -/
def convert (r : Registry) (definition : Definition) : Outcome Tool :=
  Tool.convert r.converter definition r.drawn

/-- The registry once so many more suffixes have been drawn. -/
def advance (r : Registry) (count : Nat) : Registry := { r with drawn := r.drawn + count }

/-- Converts and registers a definition. -/
def register (r : Registry) (definition : Definition) : Reply Tool :=
  if r.has definition.name.text then
    ⟨r, [], .error (.alreadyRegistered definition.name.text)⟩
  else
    let outcome := r.convert definition
    ⟨(r.advance outcome.drawn).insert outcome.value,
      outcome.events ++ [insertionEvent outcome.value], .ok outcome.value⟩

/-- Converts a definition first, and registers the tool if its name is free. -/
def convertAndRegister (r : Registry) (definition : Definition) : Reply Tool :=
  let outcome := r.convert definition
  let reply := (r.advance outcome.drawn).registerTool outcome.value
  { reply with events := outcome.events ++ reply.events }

/-- Registers definitions in order, up to the first failure. -/
def registerAll (r : Registry) : List Definition → Reply Unit
  | [] => ⟨r, [], .ok ()⟩
  | definition :: rest =>
    let first := r.register definition
    match first.result with
    | .error failure => ⟨first.registry, first.events, .error failure⟩
    | .ok _ =>
      let others := first.registry.registerAll rest
      { others with events := first.events ++ others.events }

/-- Registers tools in order, up to the first failure. -/
def registerTools (r : Registry) : List Tool → Reply Unit
  | [] => ⟨r, [], .ok ()⟩
  | tool :: rest =>
    let first := r.registerTool tool
    match first.result with
    | .error failure => ⟨first.registry, first.events, .error failure⟩
    | .ok _ =>
      let others := first.registry.registerTools rest
      { others with events := first.events ++ others.events }

/-- Registers a definition given by its parts. -/
def registerNew (r : Registry) (name description : String) (schema : Json) : Reply Tool :=
  match Definition.make name description schema with
  | .error failure => ⟨r, [], .error failure⟩
  | .ok definition => r.register definition

/-- Registers a definition whose arguments are the values of a type. -/
def registerTyped (r : Registry) (α : Type) [Schema.Described α] (name description : String) :
    Reply Tool :=
  r.registerNew name description (Schema.of α)

/-- Registers the definitions of a document. A document that does not parse changes nothing. -/
def registerDocument (r : Registry) (text : String) : Reply Unit :=
  match Catalog.parse text with
  | .error failure => ⟨r, [], .error failure⟩
  | .ok catalog => r.registerAll catalog.definitions

/-! ## Using the tools -/

/-- Checks a call's arguments against a tool. -/
def validate (r : Registry) (name : String) (arguments : Json) : Reply Unit :=
  match r.get? name with
  | none => ⟨r, [], .error (.unknownTools [name])⟩
  | some tool => ⟨r, [tool.validationEvent arguments], tool.validate arguments⟩

/-- The summaries of the tools. -/
def summaries (r : Registry) : List String := r.tools.map Tool.summary

/-- The declarations of the tools. -/
def typescript (r : Registry) : String := TypeScript.render r.tools

/-- The declarations as they are written to a path. Whether a file can be created there, with the
folders on the way, is up to the file system. -/
def save (r : Registry) (creates : String → Bool) (path : String) : Except Failure String :=
  if creates path then .ok r.typescript else .error (.unwritable path)

end Registry

end ToolShape
