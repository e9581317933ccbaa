import ToolShape.Check.Basic
import ToolShape.Converter
import ToolShape.Shape.Decode
import ToolShape.Tool.Definition

/-!
# Tools

A tool is a definition together with the record of its arguments, converted once from the
definition's schema.
-/

set_option autoImplicit false

namespace ToolShape

open Wire (Fault Layer)

/-- A definition with the record of its arguments. -/
structure Tool where
  definition : Tool.Definition
  arguments : RecordShape

namespace Tool

/-- The text of a tool's name. -/
def name (tool : Tool) : String := tool.definition.name.text

/-- Converts a definition's schema. -/
def convert (converter : Converter) (definition : Definition) : Conversion Tool := do
  let arguments ← converter.convert definition.name.text definition.schema
  return ⟨definition, arguments⟩

/-- Every issue of a call's arguments. -/
def issues (tool : Tool) (arguments : Json) : List Issue :=
  (Shape.record tool.arguments).issues arguments

/-- Accepts a call's arguments, or tells all that is wrong with them. -/
def validate (tool : Tool) (arguments : Json) : Except Failure Unit :=
  match tool.issues arguments with
  | [] => .ok ()
  | found => .error (.rejected tool.name found)

/-- What validation reports. -/
def validationEvent (tool : Tool) (arguments : Json) : Event :=
  match tool.issues arguments with
  | [] => .argumentsAccepted tool.name
  | found => .argumentsRejected tool.name found.length

/-! ## Wire form -/

def encode (tool : Tool) : Json :=
  .obj [("definition", tool.definition.encode), ("arguments", tool.arguments.encode)]

/-- Reads a tool's fields in the order of their keys, past those already found. -/
def decodeFields :
    List (String × Json) → Option Definition → Option RecordShape → Except Fault Tool
  | [], definition, arguments => do
    let definition ← Wire.required "definition" definition
    let arguments ← Wire.required "arguments" arguments
    return ⟨definition, arguments⟩
  | (k, v) :: rest, definition, arguments => do
    if k = "definition" then
      let found ← Definition.decode v
      decodeFields rest (some found) arguments
    else if k = "arguments" then
      let found ← RecordShape.decode v
      decodeFields rest definition (some found)
    else decodeFields rest definition arguments

/-- Decodes a tool. -/
def decode : Json → Except Fault Tool
  | .obj fields => decodeFields fields none none
  | .arr [] => .error (.wrongLength 0 "struct ConvertedTool with 2 elements")
  | .arr [d] => do
    let _ ← Definition.decode d
    throw (.wrongLength 1 "struct ConvertedTool with 2 elements")
  | .arr (d :: a :: rest) => do
    let definition ← Definition.decode d
    let arguments ← RecordShape.decode a
    Wire.noneLeft .document (rest.length + 2) 2
    return ⟨definition, arguments⟩
  | v => .error (.wrongKind v "struct ConvertedTool")

end Tool

end ToolShape
