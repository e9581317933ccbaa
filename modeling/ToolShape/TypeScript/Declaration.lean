import ToolShape.Text.Blank
import ToolShape.Tool.Basic
import ToolShape.TypeScript.Type

/-!
# TypeScript declarations

Every record of a list of tools is declared as an interface, once, and before the records that use
it. Each tool also gets an alias for the record of its arguments.
-/

set_option autoImplicit false

namespace ToolShape.TypeScript

/-- A declaration of the file. -/
inductive Declaration where
  | interface (record : RecordShape)
  | synonym (name target : String)

/-- The records whose names have not been seen, each name once. -/
def unseen (seen : List String) : List RecordShape → List RecordShape
  | [] => []
  | r :: rest =>
    if seen.contains r.name then unseen seen rest else r :: unseen (r.name :: seen) rest

/-- The name under which a tool's arguments are declared. -/
def aliasName (tool : Tool) : String := tool.definition.name.className ++ "Args"

/-- The declarations of tools, past the records already declared. -/
def declarationsFrom (seen : List String) : List Tool → List Declaration
  | [] => []
  | tool :: rest =>
    let fresh := unseen seen tool.arguments.records
    fresh.map .interface ++ .synonym (aliasName tool) tool.arguments.name
      :: declarationsFrom (fresh.map (·.name) ++ seen) rest

/-- The declarations of tools, in order. -/
def declarations (tools : List Tool) : List Declaration := declarationsFrom [] tools

/-! ## Text -/

/-- Whether a text is an identifier of ASCII letters, digits, underscores and dollar signs. -/
def isIdentifier : List Char → Bool
  | [] => false
  | c :: rest =>
    (c.isAlpha || c == '_' || c == '$') && rest.all fun c => c.isAlphanum || c == '_' || c == '$'

/-- A field's name as the key of a member. -/
def key (name : String) : String := if isIdentifier name.toList then name else Json.quote name

/-- Puts a backslash into every mark that would end a comment. -/
def guardEnds : List Char → List Char
  | '*' :: '/' :: rest => '*' :: '\\' :: '/' :: guardEnds rest
  | c :: rest => c :: guardEnds rest
  | [] => []

/-- A description on one line, safe inside a comment. -/
def docText (description : String) : String :=
  String.ofList (guardEnds ([' '].intercalate (Text.words description.toList)))

/-- The lines of a field: its description, if it has one, and the member. -/
def memberLines (f : FieldShape) : List String :=
  (if f.description = "" then [] else ["/** " ++ docText f.description ++ " */"])
    ++ [key f.name ++ (if f.required then "" else "?") ++ ": " ++ f.shape.typescript ++ ";"]

/-- The lines of an interface. -/
def interfaceLines (r : RecordShape) : List String :=
  if r.fields.isEmpty then ["export interface " ++ r.name ++ " \x7b\x7d"]
  else
    ["export interface " ++ r.name ++ " \x7b"]
      ++ (r.fields.flatMap memberLines).map ("    " ++ ·)
      ++ ["\x7d"]

def Declaration.lines : Declaration → List String
  | interface r => interfaceLines r
  | synonym name target => ["export type " ++ name ++ " = " ++ target ++ ";"]

/-- The comment at the head of the file. -/
def header : List String :=
  ["// TypeScript declarations for tool arguments",
    "// This file is auto-generated - do not edit manually"]

/-- The lines of the file: its parts, with an empty line between. -/
def fileLines (tools : List Tool) : List String :=
  [""].intercalate (header :: (declarations tools).map Declaration.lines)

/-- The text of the file. -/
def render (tools : List Tool) : String :=
  String.join ((fileLines tools).map (· ++ "\n"))

end ToolShape.TypeScript
