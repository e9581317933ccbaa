import ToolShape.Shape.Basic

/-!
# Wire form of shapes

A shape is written as an object with its kind under `kind`; a record's own fields stand beside it.
A field's description is left out when it is empty.
-/

set_option autoImplicit false

namespace ToolShape

/-- The name of a scalar on the wire. -/
def Scalar.tag : Scalar → String
  | .dateTime => "date_time"
  | s => s.text

/-- The part of a field's wire form that gives its description. -/
def descriptionFields (description : String) : List (String × Json) :=
  if description = "" then [] else [("description", .str description)]

mutual

def Shape.encode : Shape → Json
  | .unknown => .obj [("kind", .str "unknown")]
  | .scalar s => .obj [("kind", .str "scalar"), ("scalar", .str s.tag)]
  | .literal values => .obj [("kind", .str "literal"), ("values", .arr (values.map .str))]
  | .sequence items => .obj [("kind", .str "sequence"), ("items", items.encode)]
  | .mapping => .obj [("kind", .str "mapping")]
  | .record r => .obj (("kind", .str "record") :: r.encodeFields)
  | .union members => .obj [("kind", .str "union"), ("members", .arr (Shape.encodeAll members))]

/-- The fields of a record's wire form. -/
def RecordShape.encodeFields : RecordShape → List (String × Json)
  | ⟨name, fields⟩ => [("name", .str name), ("fields", .arr (FieldShape.encodeAll fields))]

def FieldShape.encode : FieldShape → Json
  | ⟨name, shape, required, description⟩ =>
    .obj ([("name", .str name), ("type", shape.encode), ("required", .bool required)]
      ++ descriptionFields description)

def Shape.encodeAll : List Shape → List Json
  | [] => []
  | s :: rest => s.encode :: Shape.encodeAll rest

def FieldShape.encodeAll : List FieldShape → List Json
  | [] => []
  | f :: rest => f.encode :: FieldShape.encodeAll rest

end

def RecordShape.encode (r : RecordShape) : Json := .obj r.encodeFields

end ToolShape
