import ToolShape.Shape.Basic

/-!
# TypeScript types

The spelling of a shape in TypeScript. Dates and times are strings there, and integers numbers; a
literal is the union of its values, and a record is known by its name.
-/

set_option autoImplicit false

namespace ToolShape

/-- The spelling of a scalar. -/
def Scalar.typescript : Scalar → String
  | .string | .date | .dateTime | .time => "string"
  | .number | .integer => "number"
  | .boolean => "boolean"
  | .null => "null"

mutual

/-- The spelling of a shape. -/
def Shape.typescript : Shape → String
  | .unknown => "unknown"
  | .scalar kind => kind.typescript
  | .literal values => quoteAll " | " values
  | .sequence items => "Array<" ++ items.typescript ++ ">"
  | .mapping => "Record<string, unknown>"
  | .record r => r.name
  | .union members => " | ".intercalate (Shape.typescriptAll members)

def Shape.typescriptAll : List Shape → List String
  | [] => []
  | s :: rest => s.typescript :: Shape.typescriptAll rest

end

end ToolShape
