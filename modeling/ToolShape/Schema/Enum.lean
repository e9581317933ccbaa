import ToolShape.Schema.Scalar

/-!
# Closed sets of values

An `enum` of strings becomes a literal, nullable if `null` is among them. An `enum` that holds
anything else falls back on the node's `type`.
-/

set_option autoImplicit false

namespace ToolShape.Schema

/-- The strings of a list, if it holds nothing else. -/
def allStrings? : List Json → Option (List String)
  | [] => some []
  | v :: rest => do
    let s ← v.asString?
    let others ← allStrings? rest
    return s :: others

/-- The shape of a list of allowed values, where `type` is the node's own. -/
def enumOf (values : List Json) (type : Option Json) : Shape :=
  let proper := values.filter (!·.isNull)
  if values.isEmpty then .string
  else if proper.isEmpty then .null
  else
    match allStrings? proper with
    | some strings =>
      let literal := Shape.literalOf strings
      if proper.length < values.length then literal.nullable else literal
    | none => simple (some (type.getD (.str "string")))

/-- The shape of a node with an `enum`; one that is no list leaves a string. -/
def enumShape (schema : Json.Fields) : Shape :=
  match (schema.get? "enum").bind Json.asArray? with
  | some values => enumOf values (schema.get? "type")
  | none => .string

end ToolShape.Schema
