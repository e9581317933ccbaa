import ToolShape.Proofs.Shape.Induction

/-!
# What sameness keeps

> **Two shapes that are the same hold records of the same names, in the same order.**

Sameness is structural except at literals, and names are part of it. So a shape with a record of
its own is never the same as another shape, and the union rule, which drops a member only for an
earlier one that is the same, drops no record (`ToolShape/Proofs/Shape/Union.lean`). And sameness is
an equivalence, which is why it does not matter in which groups alternatives are joined
(`ToolShape/Proofs/Shape/Grouping.lean`).

The first section inverts sameness, once for each constructor on its left; nothing after it unfolds
`Shape.same`.
-/

set_option autoImplicit false

namespace ToolShape

/-! ## Inversion -/

namespace Shape

theorem same_unknown_iff {b : Shape} : unknown.same b = true ↔ b = .unknown := by
  cases b <;> simp [same]

theorem same_mapping_iff {b : Shape} : mapping.same b = true ↔ b = .mapping := by
  cases b <;> simp [same]

theorem same_scalar_iff {kind : Scalar} {b : Shape} :
    (scalar kind).same b = true ↔ b = .scalar kind := by
  cases b with
  | scalar other =>
    simp only [same, beq_iff_eq, Shape.scalar.injEq]
    exact eq_comm
  | _ => simp [same]

theorem same_literal_iff {values : List String} {b : Shape} :
    (literal values).same b = true ↔ ∃ others, b = .literal others ∧ ∀ s, s ∈ values ↔ s ∈ others := by
  cases b <;> simp [same, sameStrings_iff]

theorem same_sequence_iff {items b : Shape} :
    (sequence items).same b = true ↔ ∃ others, b = .sequence others ∧ items.same others = true := by
  cases b <;> simp [same]

theorem same_record_iff {name : String} {fields : List FieldShape} {b : Shape} :
    (record ⟨name, fields⟩).same b = true ↔
      ∃ others, b = .record ⟨name, others⟩ ∧ List.Forall₂ FieldShape.Same fields others := by
  cases b with
  | record r =>
    obtain ⟨name', fields'⟩ := r
    simp only [same, RecordShape.same, Bool.and_eq_true, beq_iff_eq, FieldShape.sameAll_iff,
      Shape.record.injEq, RecordShape.mk.injEq]
    constructor
    · rintro ⟨rfl, h⟩
      exact ⟨fields', ⟨rfl, rfl⟩, h⟩
    · rintro ⟨others, ⟨rfl, rfl⟩, h⟩
      exact ⟨rfl, h⟩
  | _ => simp [same]

theorem same_union_iff {members : List Shape} {b : Shape} :
    (union members).same b = true ↔
      ∃ others, b = .union others ∧ List.Forall₂ (fun s t => s.same t = true) members others := by
  cases b <;> simp [same, sameAll_iff]

end Shape

/-- Every shape is the same as itself. -/
theorem Shape.same_refl (s : Shape) : s.same s = true := by
  induction s with
  | unknown => exact Shape.same_unknown_iff.mpr rfl
  | mapping => exact Shape.same_mapping_iff.mpr rfl
  | scalar kind => exact Shape.same_scalar_iff.mpr rfl
  | literal values => exact Shape.same_literal_iff.mpr ⟨values, rfl, fun _ => Iff.rfl⟩
  | sequence items ih => exact Shape.same_sequence_iff.mpr ⟨items, rfl, ih⟩
  | record name fields ih =>
    refine Shape.same_record_iff.mpr ⟨fields, rfl, List.forall₂_same.mpr fun f hf => ?_⟩
    exact ⟨rfl, ih f hf, rfl, rfl⟩
  | union members ih =>
    exact Shape.same_union_iff.mpr ⟨members, rfl, List.forall₂_same.mpr ih⟩

/-! ## Lists related member by member

The hypotheses are asked of the members of one list alone, as the induction over shapes gives
them. -/

section Related

variable {α β : Type} {R : α → β → Prop} {as : List α} {bs : List β}

theorem map_eq_of_forall₂ {γ : Type} {F : α → γ} {G : β → γ} (h : List.Forall₂ R as bs)
    (agree : ∀ a ∈ as, ∀ b, R a b → F a = G b) : as.map F = bs.map G := by
  induction h with
  | nil => rfl
  | cons first _ ih =>
    rw [List.map_cons, List.map_cons, agree _ List.mem_cons_self _ first,
      ih fun a ha => agree a (List.mem_cons_of_mem _ ha)]

theorem exists_mem_iff_of_forall₂ {P : α → Prop} {Q : β → Prop} (h : List.Forall₂ R as bs)
    (agree : ∀ a ∈ as, ∀ b, R a b → (P a ↔ Q b)) : (∃ a ∈ as, P a) ↔ ∃ b ∈ bs, Q b := by
  induction h with
  | nil => simp
  | cons first _ ih =>
    rw [List.exists_mem_cons_iff, List.exists_mem_cons_iff, agree _ List.mem_cons_self _ first,
      ih fun a ha => agree a (List.mem_cons_of_mem _ ha)]

/-- Two lists related member by member stand in the same relations, when their members do. -/
theorem forall₂_congr_left {γ : Type} {S : α → γ → Prop} {T : β → γ → Prop}
    (h : List.Forall₂ R as bs) (agree : ∀ a ∈ as, ∀ b, R a b → ∀ c, S a c ↔ T b c)
    (cs : List γ) : List.Forall₂ S as cs ↔ List.Forall₂ T bs cs := by
  induction h generalizing cs with
  | nil => rw [List.forall₂_nil_left_iff, List.forall₂_nil_left_iff]
  | cons first _ ih =>
    rw [List.forall₂_cons_left_iff, List.forall₂_cons_left_iff]
    refine exists_congr fun c => exists_congr fun rest => ?_
    rw [agree _ List.mem_cons_self _ first,
      ih (fun a ha => agree a (List.mem_cons_of_mem _ ha)) rest]

end Related

/-! ## Sameness is an equivalence

Reflexivity is above. Symmetry and transitivity come from one induction: two shapes that are the
same are the same as the same shapes. -/

theorem Shape.same_iff_of_same {a b : Shape} (h : a.same b = true) (c : Shape) :
    a.same c = true ↔ b.same c = true := by
  induction a generalizing b c with
  | unknown => rw [Shape.same_unknown_iff.mp h]
  | mapping => rw [Shape.same_mapping_iff.mp h]
  | scalar kind => rw [Shape.same_scalar_iff.mp h]
  | literal values =>
    obtain ⟨others, rfl, hvalues⟩ := Shape.same_literal_iff.mp h
    simp only [Shape.same_literal_iff, hvalues]
  | sequence items ih =>
    obtain ⟨others, rfl, hitems⟩ := Shape.same_sequence_iff.mp h
    simp only [Shape.same_sequence_iff, ih hitems]
  | record name fields ih =>
    obtain ⟨others, rfl, hfields⟩ := Shape.same_record_iff.mp h
    rw [Shape.same_record_iff, Shape.same_record_iff]
    refine exists_congr fun third => and_congr_right fun _ => ?_
    refine forall₂_congr_left hfields (fun f hf g hg k => ?_) third
    obtain ⟨hname, hshape, hrequired, hdescription⟩ := hg
    rw [FieldShape.Same, FieldShape.Same, hname, hrequired, hdescription, ih f hf hshape]
  | union members ih =>
    obtain ⟨others, rfl, hmembers⟩ := Shape.same_union_iff.mp h
    rw [Shape.same_union_iff, Shape.same_union_iff]
    refine exists_congr fun third => and_congr_right fun _ => ?_
    exact forall₂_congr_left hmembers (fun s hs t ht u => ih s hs ht u) third

theorem Shape.same_symm {a b : Shape} (h : a.same b = true) : b.same a = true :=
  (Shape.same_iff_of_same h a).mp a.same_refl

theorem Shape.same_trans {a b c : Shape} (hab : a.same b = true) (hbc : b.same c = true) :
    a.same c = true :=
  (Shape.same_iff_of_same hab c).mpr hbc

/-! ## Null -/

namespace Shape

variable {a b : Shape}

theorem isNull_iff : a.isNull = true ↔ a = .null := by
  cases a with
  | scalar kind => cases kind <;> simp [isNull]
  | _ => simp [isNull]

theorem not_isNull_iff : (!a.isNull) = true ↔ a ≠ .null := by
  rw [Bool.not_eq_true', ← Bool.not_eq_true, isNull_iff]

/-- Only `null` itself is the same as `null`. -/
theorem same_null_iff : a.same null = true ↔ a = .null :=
  ⟨fun h => same_scalar_iff.mp (same_symm h), fun h => h ▸ same_refl null⟩

theorem isNull_eq_of_same (h : a.same b = true) : a.isNull = b.isNull := by
  rw [Bool.eq_iff_iff, isNull_iff, isNull_iff, ← same_null_iff, ← same_null_iff]
  exact same_iff_of_same h null

end Shape

/-! ## Names -/

/-- Two shapes that are the same hold records of the same names. -/
theorem Shape.recordNames_eq_of_same {a b : Shape} (h : a.same b = true) :
    a.recordNames = b.recordNames := by
  induction a generalizing b with
  | unknown => rw [Shape.same_unknown_iff.mp h]
  | mapping => rw [Shape.same_mapping_iff.mp h]
  | scalar kind => rw [Shape.same_scalar_iff.mp h]
  | literal values =>
    obtain ⟨others, rfl, _⟩ := Shape.same_literal_iff.mp h
    rfl
  | sequence items ih =>
    obtain ⟨others, rfl, hitems⟩ := Shape.same_sequence_iff.mp h
    rw [Shape.recordNames_sequence, Shape.recordNames_sequence, ih hitems]
  | record name fields ih =>
    obtain ⟨others, rfl, hfields⟩ := Shape.same_record_iff.mp h
    have hmap : fields.map (·.shape.recordNames) = others.map (·.shape.recordNames) :=
      map_eq_of_forall₂ hfields fun f hf g hg => ih f hf hg.2.1
    rw [Shape.recordNames_record, Shape.recordNames_record, List.flatMap_def, hmap,
      List.flatMap_def]
  | union members ih =>
    obtain ⟨others, rfl, hmembers⟩ := Shape.same_union_iff.mp h
    have hmap : members.map Shape.recordNames = others.map Shape.recordNames :=
      map_eq_of_forall₂ hmembers fun s hs t ht => ih s hs ht
    rw [Shape.recordNames_union, Shape.recordNames_union, List.flatMap_def, hmap,
      List.flatMap_def]

end ToolShape
