import ToolShape.Json.Printer

/-!
# Descriptions of fields

A field is described by its schema's own words, followed by what the schema says of its values. The
parts stand in a fixed order, whatever the order of the keywords, and absent ones are passed over.
-/

set_option autoImplicit false

namespace ToolShape.Schema

open Json (Fields)

/-- How many examples a description shows. -/
def exampleLimit : Nat := 3

/-- A string as it is, any other value as JSON text. -/
def plain : Json → String
  | .str s => s
  | v => v.compact

/-- Values as JSON text, separated by commas. -/
def valueList (values : List Json) : String := ", ".intercalate (values.map Json.compact)

/-- A keyword's value, when it counts as given. -/
def labelled (label : String) (v : Option Json) : List String :=
  match v with
  | some v => if v.isTruthy then [label ++ ": " ++ plain v] else []
  | none => []

/-- A bound, when it is not `null`. -/
def bound (label : String) (v : Option Json) : List String :=
  match v with
  | some v => if v.isNull then [] else [label ++ ": " ++ plain v]
  | none => []

/-- The schema's own words, when it has any. -/
def ownWords (v : Option Json) : List String :=
  match v.bind Json.asString? with
  | some s => if s = "" then [] else [s]
  | none => []

/-- A list of values, when it holds any; at most `limit` are shown. -/
def samples (label opening closing : String) (limit : Option Nat) (v : Option Json) :
    List String :=
  match v.bind Json.asArray? with
  | some (value :: rest) =>
    let values := value :: rest
    let shown := match limit with
      | some n => values.take n
      | none => values
    [label ++ ": " ++ opening ++ valueList shown ++ closing]
  | _ => []

/-- The parts of a description, in order. -/
def descriptionParts (schema : Fields) : List String :=
  ownWords (schema.get? "description")
    ++ labelled "Format" (schema.get? "format")
    ++ samples "Allowed values" "[" "]" none (schema.get? "enum")
    ++ labelled "Pattern" (schema.get? "pattern")
    ++ bound "Minimum" (schema.get? "minimum")
    ++ bound "Maximum" (schema.get? "maximum")
    ++ bound "Min length" (schema.get? "minLength")
    ++ bound "Max length" (schema.get? "maxLength")
    ++ samples "Examples" "" "" (some exampleLimit) (schema.get? "examples")

/-- The description of a field with the given schema; only an object says anything. -/
def describe : Json → String
  | .obj fields => ". ".intercalate (descriptionParts fields)
  | _ => ""

end ToolShape.Schema
