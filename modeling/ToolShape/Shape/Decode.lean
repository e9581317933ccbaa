import ToolShape.Shape.Encode
import ToolShape.Wire.Fault

/-!
# Reading shapes from their wire form

Decoding takes a value as it stands: unions may be empty or nested, literals may repeat. Keys may
come in any order and unknown ones are passed over; of two faults, the one whose key comes first
wins, and a missing field is told only after the last key.
-/

set_option autoImplicit false

namespace ToolShape

open Wire (Fault Layer)

/-! ## Tags -/

/-- The kinds of shape, in the order of their numbers. -/
inductive Shape.Tag where
  | unknown | scalar | literal | sequence | mapping | record | union
deriving DecidableEq

namespace Shape.Tag

def all : List Tag := [unknown, scalar, literal, sequence, mapping, record, union]

def text : Tag → String
  | unknown => "unknown"
  | scalar => "scalar"
  | literal => "literal"
  | sequence => "sequence"
  | mapping => "mapping"
  | record => "record"
  | union => "union"

/-- A tag is its name; inside a tagged value its number will do. -/
def decode (layer : Layer) : Json → Except Fault Tag
  | .str s =>
    match all.find? (·.text == s) with
    | some tag => .ok tag
    | none => .error (.unknownVariant s (all.map text))
  | .num (.int n) =>
    match layer with
    | .document => .error (.wrongKind (.num (.int n)) "variant identifier")
    | .tagged =>
      if n < 0 then .error (.wrongKind (.num (.int n)) "variant identifier")
      else match all[n.toNat]? with
        | some tag => .ok tag
        | none => .error (.wrongValue (.num (.int n)) "variant index 0 <= i < 7")
  | v => .error (.wrongKind v "variant identifier")

/-- The tag among the fields of an object. -/
def ofFields (layer : Layer) : List (String × Json) → Except Fault Tag
  | [] => .error (.missingField "kind")
  | (k, v) :: rest => if k = "kind" then decode layer v else ofFields layer rest

end Shape.Tag

/-! ## Scalars -/

namespace Scalar

def all : List Scalar := [.string, .number, .integer, .boolean, .null, .date, .dateTime, .time]

def ofTag (s : String) : Except Fault Scalar :=
  match all.find? (·.tag == s) with
  | some kind => .ok kind
  | none => .error (.unknownVariant s (all.map tag))

/-- A scalar is its name, or an object with its name as the only key and nothing under it. -/
def decode : Json → Except Fault Scalar
  | .str s => ofTag s
  | .obj [(k, v)] => do
    let kind ← ofTag k
    match v with
    | .null => return kind
    | .obj [] => return kind
    | _ => throw (.wrongKind v "unit")
  | .obj fields => .error (.wrongValue (.obj fields) "map with a single key")
  | v => .error (.wrongKind v "string or map")

/-- The scalar among the fields of an object. -/
def ofFields : List (String × Json) → Except Fault Scalar
  | [] => .error (.missingField "scalar")
  | (k, v) :: rest => if k = "scalar" then decode v else ofFields rest

end Scalar

/-- The values of a literal among the fields of an object. -/
def Shape.literalValues : List (String × Json) → Except Fault (List String)
  | [] => .error (.missingField "values")
  | (k, v) :: rest => if k = "values" then Wire.stringList v else Shape.literalValues rest

/-! ## Shapes, records and fields -/

mutual

/-- Decodes a shape. -/
def Shape.decode (layer : Layer) : Json → Except Fault Shape
  | .obj fields => do
    match ← Shape.Tag.ofFields layer fields with
    | .unknown => return .unknown
    | .mapping => return .mapping
    | .scalar => return .scalar (← Scalar.ofFields fields)
    | .literal => return .literal (← Shape.literalValues fields)
    | .sequence => return .sequence (← Shape.decodeItems fields)
    | .union => return .union (← Shape.decodeMembers fields)
    | .record => return .record (← RecordShape.decodeFields .tagged fields none none)
  | .arr [] => .error (.missingField "kind")
  | .arr (t :: values) => do
    match ← Shape.Tag.decode layer t with
    | .unknown =>
      Wire.noneLeft .tagged values.length 0
      return .unknown
    | .mapping =>
      Wire.noneLeft .tagged values.length 0
      return .mapping
    | .scalar =>
      match values with
      | [] => throw (.wrongLength 0 "struct variant TypeDescriptor::Scalar with 1 element")
      | v :: _ =>
        let kind ← Scalar.decode v
        Wire.noneLeft .tagged values.length 1
        return .scalar kind
    | .literal =>
      match values with
      | [] => throw (.wrongLength 0 "struct variant TypeDescriptor::Literal with 1 element")
      | v :: _ =>
        let strings ← Wire.stringList v
        Wire.noneLeft .tagged values.length 1
        return .literal strings
    | .sequence =>
      match values with
      | [] => throw (.wrongLength 0 "struct variant TypeDescriptor::Sequence with 1 element")
      | v :: rest =>
        let items ← Shape.decode .tagged v
        Wire.noneLeft .tagged (rest.length + 1) 1
        return .sequence items
    | .union =>
      match values with
      | [] => throw (.wrongLength 0 "struct variant TypeDescriptor::Union with 1 element")
      | v :: rest =>
        let members ← Shape.decodeList v
        Wire.noneLeft .tagged (rest.length + 1) 1
        return .union members
    | .record => return .record (← RecordShape.decodeValues .tagged values)
  | v => .error (.wrongKind v "internally tagged enum TypeDescriptor")

/-- The item shape among the fields of an object. -/
def Shape.decodeItems : List (String × Json) → Except Fault Shape
  | [] => .error (.missingField "items")
  | (k, v) :: rest => if k = "items" then Shape.decode .tagged v else Shape.decodeItems rest

/-- The members among the fields of an object. -/
def Shape.decodeMembers : List (String × Json) → Except Fault (List Shape)
  | [] => .error (.missingField "members")
  | (k, v) :: rest => if k = "members" then Shape.decodeList v else Shape.decodeMembers rest

/-- A list of shapes. -/
def Shape.decodeList : Json → Except Fault (List Shape)
  | .arr items => Shape.decodeAll items
  | v => .error (.wrongKind v "a sequence")

def Shape.decodeAll : List Json → Except Fault (List Shape)
  | [] => .ok []
  | v :: rest => do
    let s ← Shape.decode .tagged v
    let others ← Shape.decodeAll rest
    return s :: others

/-- Decodes a record. -/
def RecordShape.decodeAt (layer : Layer) : Json → Except Fault RecordShape
  | .obj fields => RecordShape.decodeFields layer fields none none
  | .arr values => RecordShape.decodeValues layer values
  | v => .error (.wrongKind v "struct RecordDescriptor")

/-- Reads a record's fields in the order of their keys, past those already found. -/
def RecordShape.decodeFields (layer : Layer) :
    List (String × Json) → Option String → Option (List FieldShape) → Except Fault RecordShape
  | [], name, fields => do
    let name ← Wire.required "name" name
    let fields ← Wire.required "fields" fields
    return ⟨name, fields⟩
  | (k, v) :: rest, name, fields => do
    if k = "name" then
      let s ← Wire.string v
      RecordShape.decodeFields layer rest (some s) fields
    else if k = "fields" then
      let found ← FieldShape.decodeList layer v
      RecordShape.decodeFields layer rest name (some found)
    else RecordShape.decodeFields layer rest name fields

/-- Reads a record written as a list. -/
def RecordShape.decodeValues (layer : Layer) : List Json → Except Fault RecordShape
  | [] => .error (.wrongLength 0 "struct RecordDescriptor with 2 elements")
  | [n] => do
    let _ ← Wire.string n
    throw (.wrongLength 1 "struct RecordDescriptor with 2 elements")
  | n :: fs :: rest => do
    let name ← Wire.string n
    let fields ← FieldShape.decodeList layer fs
    Wire.noneLeft layer (rest.length + 2) 2
    return ⟨name, fields⟩

/-- A list of fields. -/
def FieldShape.decodeList (layer : Layer) : Json → Except Fault (List FieldShape)
  | .arr items => FieldShape.decodeAll layer items
  | v => .error (.wrongKind v "a sequence")

def FieldShape.decodeAll (layer : Layer) : List Json → Except Fault (List FieldShape)
  | [] => .ok []
  | v :: rest => do
    let f ← FieldShape.decodeAt layer v
    let others ← FieldShape.decodeAll layer rest
    return f :: others

/-- Decodes a field. -/
def FieldShape.decodeAt (layer : Layer) : Json → Except Fault FieldShape
  | .obj fields => FieldShape.decodeFields layer fields none none none none
  | .arr values => FieldShape.decodeValues layer values
  | v => .error (.wrongKind v "struct FieldDescriptor")

/-- Reads a field's parts in the order of their keys, past those already found. -/
def FieldShape.decodeFields (layer : Layer) :
    List (String × Json) → Option String → Option Shape → Option Bool → Option String →
      Except Fault FieldShape
  | [], name, shape, required, description => do
    let name ← Wire.required "name" name
    let shape ← Wire.required "type" shape
    let required ← Wire.required "required" required
    return ⟨name, shape, required, description.getD ""⟩
  | (k, v) :: rest, name, shape, required, description => do
    if k = "name" then
      let s ← Wire.string v
      FieldShape.decodeFields layer rest (some s) shape required description
    else if k = "type" then
      let s ← Shape.decode layer v
      FieldShape.decodeFields layer rest name (some s) required description
    else if k = "required" then
      let b ← Wire.boolean v
      FieldShape.decodeFields layer rest name shape (some b) description
    else if k = "description" then
      let s ← Wire.string v
      FieldShape.decodeFields layer rest name shape required (some s)
    else FieldShape.decodeFields layer rest name shape required description

/-- Reads a field written as a list; its description may be missing at the end. -/
def FieldShape.decodeValues (layer : Layer) : List Json → Except Fault FieldShape
  | [] => .error (.wrongLength 0 "struct FieldDescriptor with 4 elements")
  | [n] => do
    let _ ← Wire.string n
    throw (.wrongLength 1 "struct FieldDescriptor with 4 elements")
  | [n, t] => do
    let _ ← Wire.string n
    let _ ← Shape.decode layer t
    throw (.wrongLength 2 "struct FieldDescriptor with 4 elements")
  | [n, t, r] => do
    let name ← Wire.string n
    let shape ← Shape.decode layer t
    let required ← Wire.boolean r
    return ⟨name, shape, required, ""⟩
  | n :: t :: r :: d :: rest => do
    let name ← Wire.string n
    let shape ← Shape.decode layer t
    let required ← Wire.boolean r
    let description ← Wire.string d
    Wire.noneLeft layer (rest.length + 4) 4
    return ⟨name, shape, required, description⟩

end

/-- Decodes a record that is a document of its own. -/
def RecordShape.decode (v : Json) : Except Fault RecordShape := RecordShape.decodeAt .document v

end ToolShape
