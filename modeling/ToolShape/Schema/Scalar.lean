import ToolShape.Shape.Union

/-!
# Scalar keywords

What a `type` says on its own, with a `format`, and as one of several.
-/

set_option autoImplicit false

namespace ToolShape.Schema

/-- The scalar a `type` names. -/
def scalar? (name : String) : Option Scalar :=
  if name = "string" then some .string
  else if name = "number" then some .number
  else if name = "integer" then some .integer
  else if name = "boolean" then some .boolean
  else if name = "null" then some .null
  else none

/-- The shape of a single `type`; one that names no scalar allows any value. -/
def simple (type : Option Json) : Shape :=
  match (type.bind Json.asString?).bind scalar? with
  | some kind => .scalar kind
  | none => .unknown

/-- The scalar of a string with a `format`: only dates and times are told apart. -/
def formattedScalar (format : String) : Scalar :=
  if format = "date" then .date
  else if format = "date-time" then .dateTime
  else if format = "time" then .time
  else .string

/-- The shape of a string with a `format`. -/
def formatted (format : Option Json) : Shape :=
  match format.bind Json.asString? with
  | some name => .scalar (formattedScalar name)
  | none => .string

/-- The shape of one of several types. -/
def typeEntry (type : Json) : Shape :=
  match type.asString? with
  | some name =>
    if name = "array" then .untypedSequence
    else if name = "object" then .mapping
    else simple (some type)
  | none => .unknown

/-- The shape of a list of types. -/
def typeList (types : List Json) : Shape := Shape.unionOf (types.map typeEntry)

end ToolShape.Schema
