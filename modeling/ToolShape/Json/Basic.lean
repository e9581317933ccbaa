import ToolShape.Double.Basic

/-!
# JSON values

A value keeps the order in which an object's fields were written, because field order decides the
order of record fields and the numbering of generated names. A number written as an integer of at
most 64 bits stays an integer; every other number is a double.

An object is *settled* when no key occurs twice. `Json.settle` gives every object that form: a
repeated key keeps its first place and its last value.
-/

set_option autoImplicit false

namespace ToolShape

/-- A JSON number. -/
inductive Json.Number where
  | int (value : Int)
  | float (value : Double)
deriving DecidableEq

/-- A JSON value with ordered objects. -/
inductive Json where
  | null
  | bool (value : Bool)
  | num (value : Json.Number)
  | str (value : String)
  | arr (items : List Json)
  | obj (fields : List (String × Json))

namespace Json

instance : Inhabited Json := ⟨.null⟩

/-- The fields of an object, by order of writing. -/
abbrev Fields := List (String × Json)

/-! ## Views -/

def asString? : Json → Option String
  | .str s => some s
  | _ => none

def asArray? : Json → Option (List Json)
  | .arr items => some items
  | _ => none

def asObject? : Json → Option Fields
  | .obj fields => some fields
  | _ => none

def isNull : Json → Bool
  | .null => true
  | _ => false

/-- The items of an array; a value of any other kind has none. -/
def items (v : Json) : List Json := v.asArray?.getD []

namespace Number

def isZero : Number → Bool
  | .int n => n == 0
  | .float x => x.isZero

/-- Whether the number has no fractional part. -/
def isIntegral : Number → Bool
  | .int _ => true
  | .float x => x.isIntegral

end Number

/-- Whether a keyword's value counts as given: `null`, `false`, zero and everything empty do not. -/
def isTruthy : Json → Bool
  | .null => false
  | .bool b => b
  | .num n => !n.isZero
  | .str s => s != ""
  | .arr items => !items.isEmpty
  | .obj fields => !fields.isEmpty

/-! ## Fields of an object -/

namespace Fields

/-- The value under a key. -/
def get? : Fields → String → Option Json
  | [], _ => none
  | (k, v) :: rest, key => if k = key then some v else get? rest key

def has (fields : Fields) (key : String) : Bool := (fields.get? key).isSome

/-- Sets a key: a key already present keeps its place, a new one goes to the end. -/
def put : Fields → String → Json → Fields
  | [], key, value => [(key, value)]
  | (k, v) :: rest, key, value =>
    if k = key then (k, value) :: rest else (k, v) :: put rest key value

/-- Sets a key unless it is present already. -/
def putNew (fields : Fields) (key : String) (value : Json) : Fields :=
  if fields.has key then fields else fields.put key value

def keys (fields : Fields) : List String := fields.map Prod.fst

theorem get?_put_self (fields : Fields) (key : String) (value : Json) :
    (fields.put key value).get? key = some value := by
  induction fields with
  | nil => simp [put, get?]
  | cons head rest ih =>
    obtain ⟨k, v⟩ := head
    by_cases h : k = key <;> simp [put, get?, h, ih]

theorem get?_put_of_ne (fields : Fields) {key other : String} (value : Json) (h : key ≠ other) :
    (fields.put key value).get? other = fields.get? other := by
  induction fields with
  | nil => simp [put, get?, h]
  | cons head rest ih =>
    obtain ⟨k, v⟩ := head
    by_cases hk : k = key
    · subst hk
      simp [put, get?, h]
    · by_cases ho : k = other
      · subst ho
        simp [put, get?, hk]
      · simp [put, get?, hk, ho, ih]

/-- Setting a key adds it at the end exactly when it is new. -/
theorem keys_put (fields : Fields) (key : String) (value : Json) :
    (fields.put key value).keys =
      if key ∈ fields.keys then fields.keys else fields.keys ++ [key] := by
  induction fields with
  | nil => simp [put, keys]
  | cons head rest ih =>
    obtain ⟨k, v⟩ := head
    by_cases hk : k = key
    · subst hk
      simp [put, keys]
    · have hk' : ¬ key = k := fun h => hk h.symm
      simp only [keys] at ih
      by_cases hm : key ∈ rest.map Prod.fst <;> simp_all [put, keys]

theorem put_of_not_mem {fields : Fields} {key : String} (h : key ∉ fields.keys) (value : Json) :
    fields.put key value = fields ++ [(key, value)] := by
  induction fields with
  | nil => rfl
  | cons head rest ih =>
    obtain ⟨k, v⟩ := head
    rw [keys, List.map_cons, List.mem_cons, not_or] at h
    rw [put, if_neg (Ne.symm h.1), ih h.2]
    rfl

end Fields

/-- The value under a key of an object; a value of any other kind has none. -/
def get? (v : Json) (key : String) : Option Json := v.asObject?.bind (·.get? key)

/-! ## Settling repeated keys -/

mutual

/-- Gives every object, at any depth, pairwise different keys. -/
def settle : Json → Json
  | .arr items => .arr (settleItems items)
  | .obj fields => .obj (settleFields fields [])
  | v => v

def settleItems : List Json → List Json
  | [] => []
  | v :: rest => v.settle :: settleItems rest

/-- Adds the settled fields one by one to those already kept. -/
def settleFields : List (String × Json) → Fields → Fields
  | [], kept => kept
  | (k, v) :: rest, kept => settleFields rest (kept.put k v.settle)

end

/-- The name of a value's kind, as messages give it. -/
inductive Kind where
  | null | boolean | number | string | array | object
deriving DecidableEq

def kind : Json → Kind
  | .null => .null
  | .bool _ => .boolean
  | .num _ => .number
  | .str _ => .string
  | .arr _ => .array
  | .obj _ => .object

def Kind.text : Kind → String
  | .null => "null"
  | .boolean => "boolean"
  | .number => "number"
  | .string => "string"
  | .array => "array"
  | .object => "object"

end Json

end ToolShape
