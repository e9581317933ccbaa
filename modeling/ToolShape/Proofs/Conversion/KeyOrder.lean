import ToolShape.Proofs.Conversion.Steps
import ToolShape.Proofs.Schema.KeyOrder

/-!
# The order of keywords does not count

> **A schema with its keywords in another order converts to the same**
> (`Converter.convert_eq_of_reordered`): the same record, the same number of suffixes drawn, the
> same events in the same order.

Alike nodes have alike forms, and these are resolved part by part: the items of a list, the
properties of a record in their order, the alternatives in theirs. Each part is a pair of alike nodes
one level further down, so the induction is on the levels left, and one reordering after another
changes nothing.
-/

set_option autoImplicit false

namespace ToolShape.Converter

open Json (Fields)
open Name (Context)
open Schema (Alike AlikeFields Reorder Reordered)

/-! ## Alike parts -/

/-- Alike nodes resolve to the same, wherever they stand. -/
def IgnoresOrder (resolution : Resolution) : Prop :=
  ∀ v w, Alike v w → resolution v = resolution w

section

variable {resolution : Resolution} (h : IgnoresOrder resolution)
include h

theorem resolveFields_eq_of_alike (required : List String) {properties others : Fields}
    (hproperties : AlikeFields properties others) :
    resolveFields resolution required properties = resolveFields resolution required others := by
  induction hproperties with
  | nil => rfl
  | @cons name v w rest others hvw _ ih =>
    have hfield : field required name v = field required name w := by
      funext shape
      rw [field, field, hvw.describe_eq]
    rw [resolveFields, resolveFields, h v w hvw, hfield, ih]

theorem resolveRecord_eq_of_alike (converter : Converter) (context : Context)
    (required : List String) {properties others : Fields}
    (hproperties : AlikeFields properties others) :
    converter.resolveRecord resolution context properties required =
      converter.resolveRecord resolution context others required := by
  rw [resolveRecord, resolveRecord, resolveFields_eq_of_alike h required hproperties]

theorem resolveAlternatives_eq_of_alike (context : Context) {nodes others : List Json}
    (hnodes : List.Forall₂ Alike nodes others) :
    resolveAlternatives resolution context nodes =
      resolveAlternatives resolution context others := by
  induction hnodes with
  | nil => rfl
  | @cons v w rest others hvw _ ih =>
    rw [resolveAlternatives, resolveAlternatives, hvw.isPinned_eq, h v w hvw, ih]

end

/-! ## Nodes and schemas -/

/-- **Alike nodes resolve to the same**, with any number of levels left. -/
theorem ignoresOrder_resolveWithin (converter : Converter) (levels : Nat) :
    IgnoresOrder (converter.resolveWithin levels) := by
  induction levels with
  | zero =>
    intro v w _
    rfl
  | succ levels ih =>
    intro v w hvw
    have hform := Schema.alike_form hvw
    funext context position
    generalize hv : Schema.form v = f at hform
    generalize hw : Schema.form w = g at hform
    cases hform with
    | leaf shape => rw [resolveWithin_leaf hv, resolveWithin_leaf hw]
    | @list items others hitems =>
      rw [resolveWithin_list hv, resolveWithin_list hw, ih items others hitems]
    | record required hproperties =>
      rw [resolveWithin_record hv, resolveWithin_record hw,
        resolveRecord_eq_of_alike ih converter context required hproperties]
    | alternatives hnodes =>
      rw [resolveWithin_alternatives hv, resolveWithin_alternatives hw,
        resolveAlternatives_eq_of_alike ih context hnodes]

theorem convert_eq_of_alike (converter : Converter) (toolName : String) {schema other : Json}
    (h : Alike schema other) :
    converter.convert toolName schema = converter.convert toolName other := by
  have hproperties : AlikeFields (Schema.override [] (Schema.properties schema))
      (Schema.override [] (Schema.properties other)) :=
    AlikeFields.override .nil h.properties
  rw [convert, convert, buildRecord, buildRecord, h.requiredNames_eq,
    resolveRecord_eq_of_alike (ignoresOrder_resolveWithin converter converter.maxDepth) converter
      (Context.ofTool toolName) _ hproperties]

/-- **The order of keywords does not count.** Let the keywords of nodes be ordered anew, of the
schema itself and of any nodes inside of it, while the entries of `properties` stay in their order
and data stays as it is. Then the schema converts to the same record, from any position of any
source and with any limit: the same names, fields, shapes and descriptions; and the same events are
reported. -/
theorem convert_eq_of_reordered {schema other : Json} (h : Reordered schema other)
    (converter : Converter) (toolName : String) (position : Nat) :
    converter.convert toolName schema position = converter.convert toolName other position := by
  induction h with
  | refl => rfl
  | tail _ hreorder ih => rw [ih, convert_eq_of_alike converter toolName (.single hreorder)]

/-- Keywords change places in a branch, in a property of its variant, and at the top. -/
theorem convert_eq_of_reordered_for_address :
    let text : String × Json := ("type", .str "string")
    let note : String × Json := ("description", .str "Postal code.")
    let variant (zip : Fields) : String × Json :=
      ("anyOf", .arr [.obj [("properties", .obj [("zip", .obj zip), ("box", .obj [text])])]])
    let own : String × Json := ("properties", .obj [("city", .obj [text])])
    let address (branch : Fields) : String × Json :=
      ("properties", .obj [("to", .obj [("allOf", .arr [.obj branch])])])
    let required : String × Json := ("required", .arr [.str "to"])
    let schema : Json := .obj [address [variant [note, text], own], required]
    let other : Json := .obj [required, address [own, variant [text, note]]]
    let converter : Converter := ⟨Name.Source.counting 0, 4⟩
    Reordered schema other ∧
      converter.convert "ship" schema 0 = converter.convert "ship" other 0 ∧
      (converter.convert "ship" schema 0).value.records.map RecordShape.name =
        ["Generated_To_00000000", "Generated_shipSchema_00000001"] := by
  intro text note variant own address required schema other converter
  have hbranch : Reorder schema (.obj [address [own, variant [note, text]], required]) :=
    .under [] [required] (.property [] [] "to" (.under [] [] (.branch (by decide) [] []
      (.keywords (.swap _ _ _) (by decide)))))
  have hzip : Reorder (.obj [address [own, variant [note, text]], required])
      (.obj [address [own, variant [text, note]], required]) :=
    .under [] [required] (.property [] [] "to" (.under [] [] (.branch (by decide) [] []
      (.under [own] [] (.branch (by decide) [] [] (.under [] [] (.property [] [_] "zip"
        (.keywords (.swap _ _ _) (by decide)))))))))
  have htop : Reorder (.obj [address [own, variant [text, note]], required]) other :=
    .keywords (.swap _ _ _) (by decide)
  have hreordered : Reordered schema other := .tail (.tail (.single hbranch) hzip) htop
  refine ⟨hreordered, convert_eq_of_reordered hreordered converter "ship" 0, ?_⟩
  decide +kernel

end ToolShape.Converter
