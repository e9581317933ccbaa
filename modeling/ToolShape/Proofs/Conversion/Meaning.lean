import ToolShape.Proofs.Conversion.WellFormed
import ToolShape.Proofs.Schema.Admission

/-!
# What a conversion means

> **Converting a schema and checking a value against the result is reading the schema against the
> value** (`Converter.issues_eq_nil_iff_admits`).

`Schema.Admits` reads a node's keywords and knows no shapes. The two meet at the node's form
(`Schema.admits_form_iff`), so what is left here is one induction over the levels below the limit,
with four cases. Alternatives are the only one with something to see: the union rule accepts what
some alternative accepts, but its empty union accepts everything, so it matters that no resolved
node is a union without members.
-/

set_option autoImplicit false

namespace ToolShape.Converter

open Json (Fields)
open Name (Context)
open Schema (Holds Satisfies Admits AdmitsSome)

variable {resolution : Resolution} {admits : Json → Json → Prop}

/-- Every node resolves to a shape that accepts what the node admits. -/
def Means (resolution : Resolution) (admits : Json → Json → Prop) : Prop :=
  ∀ node context position v, (resolution node context position).value.Accepts v ↔ admits node v

/-- A field asks for what its property asks for. -/
theorem satisfiedBy_field_iff {required : List String} {name : String} {schema : Json}
    {shape : Shape} (h : ∀ v, shape.Accepts v ↔ admits schema v) {object : Fields} :
    (field required name schema shape).SatisfiedBy object ↔
      Holds admits required object name schema := by
  unfold FieldShape.SatisfiedBy Holds field
  by_cases hreq : name ∈ required
  · rw [if_pos (List.contains_iff_mem.mpr hreq)]
    cases hv : object.get? name with
    | none => simp [FieldShape.mandatory, hv, hreq]
    | some v => simp [FieldShape.mandatory, hv, hreq, h]
  · rw [if_neg fun hc => hreq (List.contains_iff_mem.mp hc)]
    cases hv : object.get? name with
    | none => simp [FieldShape.optional, hv, hreq]
    | some v =>
      -- An optional field allows `null` twice over: by itself, and through its shape.
      simp only [FieldShape.optional, hv, hreq, Shape.accepts_nullable_iff, h]
      tauto

theorem forall_satisfiedBy_resolveFields_iff (h : Means resolution admits) (required : List String)
    (properties : Fields) (position : Nat) (object : Fields) :
    (∀ f ∈ (resolveFields resolution required properties position).value, f.SatisfiedBy object) ↔
      ∀ p ∈ properties, Holds admits required object p.1 p.2 := by
  induction properties generalizing position with
  | nil => simp
  | cons p rest ih =>
    obtain ⟨name, schema⟩ := p
    rw [resolveFields_cons]
    rw [List.forall_mem_cons, List.forall_mem_cons, ih,
      satisfiedBy_field_iff (h schema (Context.ofField name) position)]

theorem accepts_resolveRecord_iff (h : Means resolution admits) (converter : Converter)
    (context : Context) (properties : Fields) (required : List String) (position : Nat) (v : Json) :
    (Shape.record (converter.resolveRecord resolution context properties required position).value).Accepts
        v ↔
      ∃ object, v = .obj object ∧ ∀ p ∈ properties, Holds admits required object p.1 p.2 := by
  rw [resolveRecord_apply, Shape.accepts_record_iff]
  refine exists_congr fun object => and_congr_right fun _ => ?_
  exact forall_satisfiedBy_resolveFields_iff h required properties position object

theorem accepts_resolveAlternative_iff (h : Means resolution admits) (context : Context)
    (node : Json) (position : Nat) (v : Json) :
    (resolveAlternative resolution context node position).value.Accepts v ↔
      if Schema.isPinned node then ∃ s, v = .str s else admits node v := by
  cases hpin : Schema.isPinned node with
  | true =>
    rw [resolveAlternative_of_isPinned hpin, if_pos rfl]
    exact Schema.accepts_string_iff
  | false =>
    rw [resolveAlternative_of_not_isPinned hpin, h, if_neg Bool.false_ne_true]

theorem exists_accepts_resolveAlternatives_iff (h : Means resolution admits) (context : Context)
    (nodes : List Json) (position : Nat) (v : Json) :
    (∃ s ∈ (resolveAlternatives resolution context nodes position).value, s.Accepts v) ↔
      ∃ node ∈ nodes, if Schema.isPinned node then ∃ s, v = .str s else admits node v := by
  induction nodes generalizing position with
  | nil => simp
  | cons node rest ih =>
    rw [resolveAlternatives_cons]
    rw [List.exists_mem_cons_iff, List.exists_mem_cons_iff, ih,
      accepts_resolveAlternative_iff h context node position v]

/-- Alternatives contribute members as soon as there are any. -/
theorem flatMap_members_resolveAlternatives_eq_nil_iff
    (h : ∀ node context position, (resolution node context position).value.Normal)
    (context : Context) (nodes : List Json) (position : Nat) :
    (resolveAlternatives resolution context nodes position).value.flatMap Shape.members = [] ↔
      nodes = [] := by
  have hnormal := forall_mem_resolveAlternatives (motive := Shape.Normal) trivial h context nodes position
  cases nodes with
  | nil => simp
  | cons node rest =>
    rw [resolveAlternatives_cons] at hnormal ⊢
    simp [(hnormal _ List.mem_cons_self).members_ne_nil]

/-- **A node resolves to what it admits**, with the levels that are left at its depth. -/
theorem means_resolveWithin (converter : Converter) (levels : Nat) :
    ∀ depth, levels + depth = converter.maxDepth + 1 →
      Means (converter.resolveWithin levels) (Admits converter.maxDepth depth) := by
  induction levels with
  | zero =>
    intro depth hdepth node context position v
    rw [resolveWithin_zero]
    exact iff_of_true .unknown (Schema.admits_of_lt (by omega) node v)
  | succ levels ih =>
    intro depth hdepth node context position v
    have hmeans := ih (depth + 1) (by omega)
    -- Both sides go by the form of the node from here on.
    rw [Schema.admits_iff_nodeAdmits (by omega), ← Schema.admits_form_iff]
    cases hform : Schema.form node with
    | leaf shape =>
      rw [resolveWithin_leaf hform]
      exact Iff.rfl
    | list items =>
      rw [resolveWithin_list hform]
      dsimp only [Schema.Form.Admits]
      rw [Shape.accepts_sequence_iff]
      exact exists_congr fun vs => and_congr_right fun _ =>
        forall₂_congr fun w _ => hmeans items context.item position w
    | record properties required =>
      rw [resolveWithin_record hform]
      exact accepts_resolveRecord_iff hmeans converter context properties required position v
    | alternatives nodes =>
      rw [resolveWithin_alternatives hform]
      dsimp only [Schema.Form.Admits, AdmitsSome]
      rw [Shape.accepts_unionOf_iff, exists_accepts_resolveAlternatives_iff hmeans,
        flatMap_members_resolveAlternatives_eq_nil_iff fun node context position =>
          (formedWithin_resolveWithin converter levels node context position).1.normal]

theorem accepts_resolve_iff (converter : Converter) (node : Json) (context : Context)
    (position : Nat) (v : Json) :
    (converter.resolve node context position).value.Accepts v ↔
      Admits converter.maxDepth 1 node v :=
  means_resolveWithin converter converter.maxDepth 1 rfl node context position v

theorem accepts_buildRecord_iff (converter : Converter) (context : Context) (properties : Fields)
    (required : List String) (position : Nat) (v : Json) :
    (Shape.record (converter.buildRecord context properties required position).value).Accepts v ↔
      Satisfies (Admits converter.maxDepth 1) properties.reverse required v := by
  rw [buildRecord, accepts_resolveRecord_iff (means_resolveWithin converter converter.maxDepth 1 rfl)]
  exact (Schema.satisfies_iff_of_get?_eq (Schema.nodup_keys_override_nil properties)
    (Schema.get?_override_nil properties)).symm

/-- **Converting and checking is reading the schema.** Whatever is converted, resolved or built, no
issue is found in a value exactly when the schema admits it. -/
theorem issues_eq_nil_iff_admits (converter : Converter) (position : Nat) (v : Json) :
    (∀ toolName schema, (converter.convert toolName schema position).value.issues v = [] ↔
      Satisfies (Admits converter.maxDepth 1) (Schema.properties schema).reverse
        (Schema.requiredNames (schema.get? "required")) v) ∧
    (∀ context properties required,
      (converter.buildRecord context properties required position).value.issues v = [] ↔
        Satisfies (Admits converter.maxDepth 1) properties.reverse required v) ∧
    ∀ node context, (converter.resolve node context position).value.issues v = [] ↔
      Admits converter.maxDepth 1 node v := by
  have hbuilt : ∀ context properties required,
      (converter.buildRecord context properties required position).value.issues v = [] ↔
        Satisfies (Admits converter.maxDepth 1) properties.reverse required v := by
    intro context properties required
    rw [RecordShape.issues_eq, Shape.issues_eq_nil_iff, accepts_buildRecord_iff]
  refine ⟨fun toolName schema => ?_, hbuilt, fun node context => ?_⟩
  · rw [convert_apply]
    exact hbuilt _ _ _
  · rw [Shape.issues_eq_nil_iff, accepts_resolve_iff]

end ToolShape.Converter
