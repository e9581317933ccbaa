import ToolShape.Proofs.Schema.Properties
import ToolShape.Proofs.Shape.Union
import ToolShape.Schema.Form

/-!
# What a form is made of

A node's form is either a shape known at once or a recipe over further nodes. The shapes known at
once come from few parts (`Schema.Plain`), and the properties of a record are never empty and never
name a field twice (`Schema.sound_form`). Results about conversions take both from here, so that
the keywords are walked through once.
-/

set_option autoImplicit false

namespace ToolShape.Schema

open Json (Fields)

/-! ## Shapes known at once -/

/-- The shapes that need no other node: they hold no record, and at most one list, of any values. -/
inductive Plain : Shape → Prop where
  | unknown : Plain .unknown
  | scalar (kind : Scalar) : Plain (.scalar kind)
  | literal {values : List String} (nonempty : values ≠ []) : Plain (Shape.literalOf values)
  | untypedSequence : Plain .untypedSequence
  | mapping : Plain .mapping
  | unionOf {alternatives : List Shape} (all : ∀ s ∈ alternatives, Plain s) :
    Plain (Shape.unionOf alternatives)

theorem Plain.nullable {s : Shape} (h : Plain s) : Plain s.nullable := by
  refine .unionOf fun t ht => ?_
  rcases List.mem_pair.mp ht with rfl | rfl
  · exact h
  · exact .scalar .null

theorem plain_simple (type : Option Json) : Plain (simple type) := by
  unfold simple
  split
  · exact .scalar _
  · exact .unknown

theorem plain_formatted (format : Option Json) : Plain (formatted format) := by
  unfold formatted
  split <;> exact .scalar _

theorem plain_typeEntry (type : Json) : Plain (typeEntry type) := by
  unfold typeEntry
  split
  · split
    · exact .untypedSequence
    · split
      · exact .mapping
      · exact plain_simple _
  · exact .unknown

theorem plain_typeList (types : List Json) : Plain (typeList types) := by
  refine .unionOf fun s hs => ?_
  obtain ⟨type, _, rfl⟩ := List.mem_map.mp hs
  exact plain_typeEntry type

theorem allStrings?_eq_some_iff {values : List Json} {strings : List String} :
    allStrings? values = some strings ↔ values = strings.map Json.str := by
  induction values generalizing strings with
  | nil => cases strings <;> simp [allStrings?]
  | cons v rest ih =>
    cases v with
    | str s =>
      cases strings <;> simp [allStrings?, Json.asString?, Option.bind_eq_some_iff, ih, and_comm]
    | _ => cases strings <;> simp [allStrings?, Json.asString?]

theorem plain_enumShape (schema : Fields) : Plain (enumShape schema) := by
  unfold enumShape
  split
  · next values _ =>
    unfold enumOf
    dsimp only
    split
    · exact .scalar .string
    · split
      · exact .scalar .null
      · next hproper =>
        split
        · next strings hstrings =>
          have hliteral : Plain (Shape.literalOf strings) := by
            refine .literal fun hnil => hproper ?_
            rw [allStrings?_eq_some_iff, hnil] at hstrings
            rw [hstrings]
            rfl
          split
          · exact hliteral.nullable
          · exact hliteral
        · exact plain_simple _
  · exact .scalar .string

/-! ## Forms -/

/-- What the parts of a form are promised to be. -/
def Form.Sound : Form → Prop
  | .leaf shape => Plain shape
  | .record properties _ => properties ≠ [] ∧ properties.keys.Nodup
  | .list _ => True
  | .alternatives _ => True

theorem sound_recordOr {properties : Fields} (h : properties.keys.Nodup) (required : List String)
    {otherwise : Shape} (hplain : Plain otherwise) :
    (recordOr properties required otherwise).Sound := by
  unfold recordOr
  split
  · exact hplain
  · next hne => exact ⟨fun hnil => hne (by simp [hnil]), h⟩

theorem sound_mergedForm (schema : Fields) : (mergedForm schema).Sound := by
  refine sound_recordOr (nodup_keys_mergedProperties _) _ ?_
  split
  · split
    · exact .untypedSequence
    · exact .mapping
  · exact .mapping

theorem sound_listForm (schema : Fields) : (listForm schema).Sound := by
  unfold listForm
  split
  · trivial
  · exact Plain.untypedSequence

theorem sound_objectForm (schema : Fields) : (objectForm schema).Sound :=
  sound_recordOr (nodup_keys_override_nil _) _ .mapping

theorem sound_typedForm (schema : Fields) : (typedForm schema).Sound := by
  unfold typedForm
  split
  · exact plain_typeList _
  · split
    · exact sound_listForm schema
    · split
      · exact sound_objectForm schema
      · split
        · exact plain_formatted _
        · exact plain_simple _
  · exact plain_simple _

/-- **The parts of every node's form are sound.** -/
theorem sound_form (node : Json) : (form node).Sound := by
  unfold form
  split
  · next fields =>
    dsimp only
    split
    · exact Plain.unknown
    · split
      · exact plain_enumShape fields
      · split
        · exact sound_mergedForm fields
        · split
          · trivial
          · split
            · trivial
            · exact sound_typedForm fields
  · exact Plain.unknown

theorem plain_of_form {node : Json} {shape : Shape} (h : form node = .leaf shape) :
    Plain shape := by
  have hsound := sound_form node
  rwa [h] at hsound

theorem properties_of_form {node : Json} {properties : Fields} {required : List String}
    (h : form node = .record properties required) :
    properties ≠ [] ∧ properties.keys.Nodup := by
  have hsound := sound_form node
  rwa [h] at hsound

end ToolShape.Schema
