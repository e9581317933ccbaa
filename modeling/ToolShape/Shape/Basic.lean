import ToolShape.Json.Printer

/-!
# Shapes

A shape says what values an argument may take. It is the result of reading a schema, and what
checking, summaries and declarations work from; nothing in it refers back to the schema.

Shapes, records and fields are one mutual family: a record is a shape, and each of its fields has
one.
-/

set_option autoImplicit false

namespace ToolShape

/-- The kinds of single values. The last three are strings that hold a point in time. -/
inductive Scalar where
  | string | number | integer | boolean | null | date | dateTime | time
deriving DecidableEq

/-- The name of a scalar in messages and summaries. -/
def Scalar.text : Scalar → String
  | .string => "string"
  | .number => "number"
  | .integer => "integer"
  | .boolean => "boolean"
  | .null => "null"
  | .date => "date"
  | .dateTime => "date-time"
  | .time => "time"

mutual

/-- What values are allowed. -/
inductive Shape where
  /-- Any value. -/
  | unknown
  | scalar (kind : Scalar)
  /-- One of the listed strings. -/
  | literal (values : List String)
  /-- A list of values of one shape. -/
  | sequence (items : Shape)
  /-- An object with any fields. -/
  | mapping
  /-- An object with the given fields. -/
  | record (record : RecordShape)
  /-- A value of any of the members. -/
  | union (members : List Shape)

/-- A named list of fields. -/
structure RecordShape where
  name : String
  fields : List FieldShape

/-- A field of a record. A field that is not required may be left out, or hold `null`. -/
structure FieldShape where
  name : String
  shape : Shape
  required : Bool
  description : String

end

namespace Shape

instance : Inhabited Shape := ⟨.unknown⟩

abbrev string : Shape := .scalar .string
abbrev null : Shape := .scalar .null

/-- A list of any values. -/
abbrev untypedSequence : Shape := .sequence .unknown

/-- The shape of the listed strings, each listed once. -/
def literalOf (values : List String) : Shape := .literal values.eraseDups

/-- Whether a shape is the scalar `null`. -/
def isNull : Shape → Bool
  | .scalar .null => true
  | _ => false

def asRecord? : Shape → Option RecordShape
  | .record r => some r
  | _ => none

end Shape

/-! ## Views of a record -/

namespace RecordShape

def fieldNames (r : RecordShape) : List String := r.fields.map FieldShape.name

/-- The first field with a name. -/
def field? (r : RecordShape) (name : String) : Option FieldShape := r.fields.find? (·.name == name)

def requiredFields (r : RecordShape) : List FieldShape := r.fields.filter (·.required)

end RecordShape

/-- What a field that is left out stands for: `null` when it may be left out. -/
def FieldShape.default? (f : FieldShape) : Option Json := if f.required then none else some .null

/-! ## Records of a tree

The records in a shape are listed with nested ones before the record they stand in, fields and
members from left to right. -/

mutual

/-- The records in a shape. -/
def Shape.records : Shape → List RecordShape
  | .record r => r.records
  | .sequence items => items.records
  | .union members => Shape.recordsOfAll members
  | _ => []

/-- A record and those nested in it, which come first. -/
def RecordShape.records : RecordShape → List RecordShape
  | ⟨name, fields⟩ => FieldShape.recordsOfAll fields ++ [⟨name, fields⟩]

def Shape.recordsOfAll : List Shape → List RecordShape
  | [] => []
  | s :: rest => s.records ++ Shape.recordsOfAll rest

def FieldShape.recordsOfAll : List FieldShape → List RecordShape
  | [] => []
  | ⟨_, shape, _, _⟩ :: rest => shape.records ++ FieldShape.recordsOfAll rest

end

/-! ## Text -/

/-- Strings in JSON text, with a separator between them. -/
def quoteAll (separator : String) (values : List String) : String :=
  separator.intercalate (values.map Json.quote)

mutual

/-- A shape on one line, as messages and summaries show it. -/
def Shape.text : Shape → String
  | .unknown => "any"
  | .scalar s => s.text
  | .literal values => "literal[" ++ quoteAll ", " values ++ "]"
  | .sequence items => "array<" ++ items.text ++ ">"
  | .mapping => "map<string, any>"
  | .record r => r.name
  | .union members => " | ".intercalate (Shape.textOfAll members)

def Shape.textOfAll : List Shape → List String
  | [] => []
  | s :: rest => s.text :: Shape.textOfAll rest

end

theorem Shape.textOfAll_eq_map (members : List Shape) :
    Shape.textOfAll members = members.map Shape.text := by
  induction members with
  | nil => rfl
  | cons s rest ih => simp [Shape.textOfAll, ih]

end ToolShape
