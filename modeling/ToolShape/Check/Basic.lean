import ToolShape.Check.Issue
import ToolShape.Check.Temporal
import ToolShape.Shape.Union

/-!
# Checking values against shapes

The check walks shape and value together and collects every issue, in the order of fields and
items. It adds to the issues found so far and never looks at them, and the place only labels what
is found.
-/

set_option autoImplicit false

namespace ToolShape

/-- Whether a string holds a point in time of the given kind. -/
def Scalar.holds : Scalar → String → Bool
  | .date, text => Temporal.isDate text
  | .dateTime, text => Temporal.isInstant text
  | .time, text => Temporal.isTime text
  | _, _ => false

/-- What is wrong with a value that should be a string with a point in time. -/
def Scalar.temporalMismatch? (kind : Scalar) : Json → Option Mismatch
  | .str text => if kind.holds text then none else some (.notTemporal kind text)
  | v => some (.notText kind v.kind)

/-- Whether a value is of a kind other than the temporal ones. -/
def Scalar.isPlainly : Scalar → Json → Bool
  | .string, .str _ => true
  | .number, .num _ => true
  | .integer, .num n => n.isIntegral
  | .boolean, .bool _ => true
  | .null, .null => true
  | _, _ => false

/-- What is wrong with a value that should be a scalar. -/
def Scalar.mismatch? (kind : Scalar) (v : Json) : Option Mismatch :=
  match kind with
  | .date => Scalar.temporalMismatch? .date v
  | .dateTime => Scalar.temporalMismatch? .dateTime v
  | .time => Scalar.temporalMismatch? .time v
  | _ => if kind.isPlainly v then none else some (.wrongKind kind.text v.kind)

/-- Whether a value is one of the listed strings. -/
def isListed (values : List String) : Json → Bool
  | .str s => values.contains s
  | _ => false

/-- Checks items from the given index on, each at its place. -/
def checkItems (check : Json → Place → List Issue → List Issue) (place : Place) :
    (index : Nat) → List Json → List Issue → List Issue
  | _, [], found => found
  | index, v :: rest, found =>
    checkItems check place (index + 1) rest (check v (place ++ [.item index]) found)

mutual

/-- Adds the issues of a value at a place to those found before. -/
def Shape.check : Shape → Json → Place → List Issue → List Issue
  | .unknown, _, _, found => found
  | .scalar kind, v, place, found =>
    match kind.mismatch? v with
    | none => found
    | some mismatch => found ++ [⟨place, mismatch⟩]
  | .literal values, v, place, found =>
    if isListed values v then found else found ++ [⟨place, .notListed values v⟩]
  | .sequence items, v, place, found =>
    match v with
    | .arr elements => checkItems items.check place 0 elements found
    | v => found ++ [⟨place, .wrongKind "array" v.kind⟩]
  | .mapping, v, place, found =>
    match v with
    | .obj _ => found
    | v => found ++ [⟨place, .wrongKind "object" v.kind⟩]
  | .record r, v, place, found => r.check v place found
  | .union members, v, place, found =>
    if Shape.anyAccepts members v place then found
    else if (members.filter (!·.isNull)).length == 1 then Shape.checkFirst members v place found
    else found ++ [⟨place, .wrongKind (Shape.union members).text v.kind⟩]

/-- Checks a value against the first member that is not `null`. -/
def Shape.checkFirst : List Shape → Json → Place → List Issue → List Issue
  | [], _, _, found => found
  | s :: rest, v, place, found =>
    if s.isNull then Shape.checkFirst rest v place found else s.check v place found

/-- Whether some member finds nothing wrong with a value. Each is tried at the value's place, and
what it finds is dropped. -/
def Shape.anyAccepts : List Shape → Json → Place → Bool
  | [], _, _ => false
  | s :: rest, v, place => (s.check v place []).isEmpty || Shape.anyAccepts rest v place

/-- Adds the issues of a value that should be an object with a record's fields. -/
def RecordShape.check : RecordShape → Json → Place → List Issue → List Issue
  | ⟨_, fields⟩, .obj values, place, found => FieldShape.checkAll fields values place found
  | _, v, place, found => found ++ [⟨place, .wrongKind "object" v.kind⟩]

/-- Adds the issues of an object's fields, each at its place. -/
def FieldShape.checkAll : List FieldShape → Json.Fields → Place → List Issue → List Issue
  | [], _, _, found => found
  | ⟨name, shape, required, _⟩ :: rest, values, place, found =>
    FieldShape.checkAll rest values place
      (match values.get? name with
      | none => if required then found ++ [⟨place ++ [.field name], .missing⟩] else found
      | some .null =>
        if required then shape.check .null (place ++ [.field name]) found else found
      | some v => shape.check v (place ++ [.field name]) found)

end

/-- Every issue of a value; none means that it is accepted. -/
def Shape.issues (s : Shape) (v : Json) : List Issue := s.check v [] []

/-- Every issue of an object with a record's fields. -/
def RecordShape.issues (r : RecordShape) (v : Json) : List Issue := r.check v [] []

end ToolShape
