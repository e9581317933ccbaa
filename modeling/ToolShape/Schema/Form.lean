import ToolShape.Schema.Enum
import ToolShape.Schema.Properties

/-!
# The form of a schema node

A node is classified before anything in it is resolved. Either its shape is known at once, or it is
made of further nodes: the items of a list, the properties of a record, or alternatives. The first
keyword present decides, in the order `$ref`, `enum`, `allOf`, `anyOf`, `oneOf`, `type`.
-/

set_option autoImplicit false

namespace ToolShape.Schema

open Json (Fields)

/-- What a node is made of. -/
inductive Form where
  /-- A shape that needs no other node. -/
  | leaf (shape : Shape)
  /-- A list whose items have a schema. -/
  | list (items : Json)
  | record (properties : Fields) (required : List String)
  | alternatives (nodes : List Json)

/-- A record of the given properties; without any, the shape given instead. -/
def recordOr (properties : Fields) (required : List String) (otherwise : Shape) : Form :=
  if properties.isEmpty then .leaf otherwise else .record properties required

/-- An `allOf`: one record of all branches, or what the last `type` says. -/
def mergedForm (schema : Fields) : Form :=
  let parts := branches schema
  recordOr (mergedProperties parts) (mergedRequired parts)
    (match (lastType? parts).bind Json.asString? with
      | some name => if name = "array" then .untypedSequence else .mapping
      | none => .mapping)

/-- The nodes under a keyword that holds alternatives. -/
def alternativesUnder (schema : Fields) (key : String) : Form :=
  .alternatives (((schema.get? key).bind Json.asArray?).getD [])

/-- A list: its items count when their schema says something. -/
def listForm (schema : Fields) : Form :=
  match schema.get? "items" with
  | some (.obj (field :: rest)) => .list (.obj (field :: rest))
  | _ => .leaf .untypedSequence

/-- An object: a record of its properties, or a mapping. -/
def objectForm (schema : Fields) : Form :=
  recordOr (override [] (properties (.obj schema))) (requiredNames (schema.get? "required"))
    .mapping

/-- A node classified by its `type` alone. -/
def typedForm (schema : Fields) : Form :=
  match schema.get? "type" with
  | some (.arr types) => .leaf (typeList types)
  | some (.str name) =>
    if name = "array" then listForm schema
    else if name = "object" then objectForm schema
    else if name = "string" && schema.has "format" then .leaf (formatted (schema.get? "format"))
    else .leaf (simple (some (.str name)))
  | type => .leaf (simple type)

/-- Classifies a node. -/
def form : Json → Form
  | .obj fields =>
    let schema : Fields := fields
    if schema.isEmpty || schema.has "$ref" then .leaf .unknown
    else if schema.has "enum" then .leaf (enumShape schema)
    else if schema.has "allOf" then mergedForm schema
    else if schema.has "anyOf" then alternativesUnder schema "anyOf"
    else if schema.has "oneOf" then alternativesUnder schema "oneOf"
    else typedForm schema
  | _ => .leaf .unknown

/-- Whether an alternative is pinned to one value; it then counts as a string. -/
def isPinned (node : Json) : Bool := (node.get? "const").isSome

end ToolShape.Schema
