import ToolShape.Failure
import ToolShape.Tool.Name

/-!
# Tool definitions

A tool as it is described to others: a name, a description, and a schema for its arguments. The
description and the schema may be left out, and the schema may stand under any of three keys.
-/

set_option autoImplicit false

namespace ToolShape.Tool

open Wire (Fault Layer)

/-- A tool as it is described to others. -/
structure Definition where
  name : Name
  description : String
  schema : Json

namespace Definition

/-- The schema of a tool that declares none: an object without properties. -/
def emptySchema : Json := .obj [("type", .str "object"), ("properties", .obj [])]

/-- A definition from its parts; the name must not be blank. -/
def make (name description : String) (schema : Json) : Except Failure Definition :=
  match Name.ofText? name with
  | some name => .ok ⟨name, description, schema⟩
  | none => .error .blankToolName

/-! ## Wire form -/

def encode (d : Definition) : Json :=
  .obj [("name", .str d.name.text), ("description", .str d.description),
    ("input_schema", d.schema)]

/-- Decodes a tool's name. -/
def decodeName (v : Json) : Except Fault Name := do
  let s ← Wire.string v
  match Name.ofText? s with
  | some name => return name
  | none => throw .blankToolName

/-- The keys a schema may stand under. -/
def schemaKeys : List String := ["input_schema", "inputSchema", "parameters"]

/-- The fault of a field given twice. -/
def once {α : Type} (name : String) : Option α → Except Fault Unit
  | none => .ok ()
  | some _ => .error (.duplicateField name)

/-- Reads a definition's fields in the order of their keys, past those already found. -/
def decodeFields :
    List (String × Json) → Option Name → Option String → Option Json → Except Fault Definition
  | [], name, description, schema => do
    let name ← Wire.required "name" name
    return ⟨name, description.getD "", schema.getD emptySchema⟩
  | (k, v) :: rest, name, description, schema => do
    if k = "name" then
      once "name" name
      let found ← decodeName v
      decodeFields rest (some found) description schema
    else if k = "description" then
      once "description" description
      let found ← Wire.string v
      decodeFields rest name (some found) schema
    else if schemaKeys.contains k then
      once "input_schema" schema
      decodeFields rest name description (some v)
    else decodeFields rest name description schema

/-- Reads a definition written as a list, which may end after any part but the name. -/
def decodeValues (layer : Layer) : List Json → Except Fault Definition
  | [] => .error (.wrongLength 0 "struct ToolDefinition with 3 elements")
  | [n] => do return ⟨← decodeName n, "", emptySchema⟩
  | [n, d] => do
    let name ← decodeName n
    return ⟨name, ← Wire.string d, emptySchema⟩
  | n :: d :: schema :: rest => do
    let name ← decodeName n
    let description ← Wire.string d
    Wire.noneLeft layer (rest.length + 3) 3
    return ⟨name, description, schema⟩

/-- Decodes a definition. -/
def decodeAt (layer : Layer) : Json → Except Fault Definition
  | .obj fields => decodeFields fields none none none
  | .arr values => decodeValues layer values
  | v => .error (.wrongKind v "struct ToolDefinition")

/-- Decodes a definition that is a document of its own. -/
def decode (v : Json) : Except Fault Definition := decodeAt .document v

end Definition

end ToolShape.Tool
