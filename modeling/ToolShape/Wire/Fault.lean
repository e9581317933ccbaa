import ToolShape.Json.Printer
import ToolShape.Text.Quoted

/-!
# Faults of decoding

A JSON value that does not spell what was expected of it gives one fault: the first that the reader
meets. Causes are kept apart here, and their wording is in `Fault.message` alone.
-/

set_option autoImplicit false

namespace ToolShape.Wire

/-- Why a value does not decode. -/
inductive Fault where
  /-- A value of the wrong kind. -/
  | wrongKind (found : Json) (expected : String)
  /-- A value of the right kind that is not allowed. -/
  | wrongValue (found : Json) (expected : String)
  | missingField (name : String)
  | duplicateField (name : String)
  | unknownVariant (name : String) (known : List String)
  /-- A list that is too short or too long. -/
  | wrongLength (length : Nat) (expected : String)
  | blankToolName
  /-- A document that is neither a list of definitions nor an object that holds one. -/
  | noDefinitionList

/-- How a found value is named. -/
def found : Json → String
  | .null => "null"
  | .bool b => "boolean `" ++ (if b then "true" else "false") ++ "`"
  | .num (.int n) => "integer `" ++ toString n ++ "`"
  | .num (.float x) => "floating point `" ++ Json.floatText x ++ "`"
  | .str s => "string " ++ Text.quoted s
  | .arr _ => "sequence"
  | .obj _ => "map"

/-- Names between backticks, as a list. -/
def listed (names : List String) : String :=
  ", ".intercalate (names.map fun name => "`" ++ name ++ "`")

namespace Fault

def message : Fault → String
  | wrongKind v expected => "invalid type: " ++ found v ++ ", expected " ++ expected
  | wrongValue v expected => "invalid value: " ++ found v ++ ", expected " ++ expected
  | missingField name => "missing field `" ++ name ++ "`"
  | duplicateField name => "duplicate field `" ++ name ++ "`"
  | unknownVariant name known =>
    "unknown variant `" ++ name ++ "`, expected one of " ++ listed known
  | wrongLength length expected =>
    "invalid length " ++ toString length ++ ", expected " ++ expected
  | blankToolName => "Invalid argument: Tool name must be non-empty"
  | noDefinitionList => "data did not match any variant of untagged enum ToolFileShape"

end Fault

/-! ## Plain values -/

def string : Json → Except Fault String
  | .str s => .ok s
  | v => .error (.wrongKind v "a string")

def boolean : Json → Except Fault Bool
  | .bool b => .ok b
  | v => .error (.wrongKind v "a boolean")

def strings : List Json → Except Fault (List String)
  | [] => .ok []
  | v :: rest => do
    let s ← string v
    let others ← strings rest
    return s :: others

def stringList : Json → Except Fault (List String)
  | .arr items => strings items
  | v => .error (.wrongKind v "a sequence")

/-! ## Lists in the place of objects

An object with fixed fields may be written as the list of its values. What is said of values left
over depends on whether the list belongs to the document itself, or to the part of it that had to
be set aside until a tag was known. -/

/-- Where a value stands. -/
inductive Layer where
  /-- In the document, above every tag. -/
  | document
  /-- Inside a tagged value. -/
  | tagged
deriving DecidableEq

/-- The fault of a list of `length` values of which only `used` have a meaning. -/
def leftover (layer : Layer) (length used : Nat) : Fault :=
  match layer with
  | .document => .wrongLength length "fewer elements in array"
  | .tagged =>
    .wrongLength length
      (if used == 1 then "1 element in sequence" else toString used ++ " elements in sequence")

/-- Accepts the end of a list of `length` values after the first `used`. -/
def noneLeft (layer : Layer) (length used : Nat) : Except Fault Unit :=
  if length ≤ used then .ok () else .error (leftover layer length used)

/-- A value that has been found, or the fault that its field is missing. -/
def required {α : Type} (name : String) : Option α → Except Fault α
  | some a => .ok a
  | none => .error (.missingField name)

end ToolShape.Wire
