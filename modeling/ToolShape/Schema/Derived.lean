import ToolShape.Json.Basic

/-!
# Schemas of types

The schema of a type whose values are passed as arguments. Numbers of fixed width name their
format, and unsigned ones their bounds; a type that may be missing also allows `null`. Records write
the schemas of their fields in place, because references are never followed.
-/

set_option autoImplicit false

namespace ToolShape.Schema

open Json (Fields)

/-- Types whose values are passed as arguments. -/
class Described (α : Type) where
  /-- The keywords of the type's schema. -/
  keywords : Fields
  /-- Whether an argument of this type may be left out. -/
  mayBeMissing : Bool

/-- The schema of a type. -/
def of (α : Type) [Described α] : Json := .obj (Described.keywords α)

instance : Described String := ⟨[("type", .str "string")], false⟩

instance : Described Int64 := ⟨[("type", .str "integer"), ("format", .str "int64")], false⟩

instance : Described UInt32 :=
  ⟨[("type", .str "integer"), ("format", .str "uint32"), ("minimum", .num (.int 0))], false⟩

instance : Described UInt8 :=
  ⟨[("type", .str "integer"), ("format", .str "uint8"), ("minimum", .num (.int 0)),
    ("maximum", .num (.int 255))], false⟩

/-- The keyword `type` with `null` among the types. -/
def allowNull : String × Json → String × Json
  | ("type", type) => ("type", .arr [type, .str "null"])
  | keyword => keyword

instance {α : Type} [Described α] : Described (Option α) :=
  ⟨(Described.keywords α).map allowNull, true⟩

/-- The keywords of one of a few names. -/
def choice (names : List String) : Fields :=
  [("type", .str "string"), ("enum", .arr (names.map .str))]

/-- A field of a record type. -/
structure Entry where
  name : String
  schema : Json
  required : Bool

/-- The field of a given type, with a description unless that is empty. -/
def entry (name : String) (α : Type) [Described α] (description : String) : Entry where
  name := name
  schema := .obj (if description = "" then Described.keywords α
    else Described.keywords α ++ [("description", .str description)])
  required := !Described.mayBeMissing α

/-- The keywords of a record type. -/
def recordKeywords (entries : List Entry) : Fields :=
  [("type", .str "object"), ("properties", .obj (entries.map fun e => (e.name, e.schema))),
    ("required", .arr ((entries.filter (·.required)).map fun e => .str e.name))]

end ToolShape.Schema
