import ToolShape.Proofs.Check.Places

/-!
# Sameness and the check

> **No check tells apart two shapes that are the same** (`Shape.places_eq_of_same`): it finds issues
> at the same places of every value, and so accepts the same ones.

Nothing is asked of the shapes. Literals may repeat what they list, and unions may be empty, have a
single member, or stand inside each other. What is wrong at a place is a text, and the texts may
differ: an issue at a literal lists its strings in their order.
-/

set_option autoImplicit false

namespace ToolShape.Shape

variable {a b : Shape}

/-- **Shapes that are the same find issues at the same places.** -/
theorem places_eq_of_same (h : a.same b = true) (v : Json) : a.places v = b.places v := by
  induction a generalizing b v with
  | unknown => rw [same_unknown_iff.mp h]
  | mapping => rw [same_mapping_iff.mp h]
  | scalar kind => rw [same_scalar_iff.mp h]
  | literal values =>
    obtain ⟨others, rfl, hvalues⟩ := same_literal_iff.mp h
    have hlisted : isListed values v = isListed others v := by
      cases v with
      | str s => simp [isListed, hvalues]
      | _ => rfl
    rw [places, places, issues, issues, check_literal, check_literal, hlisted]
    split <;> rfl
  | sequence items ih =>
    obtain ⟨others, rfl, hitems⟩ := same_sequence_iff.mp h
    cases v with
    | arr vs => exact places_sequence_eq (List.forall₂_same.mpr fun w _ => ih hitems w)
    | _ => rfl
  | record name fields ih =>
    obtain ⟨others, rfl, hfields⟩ := same_record_iff.mp h
    cases v with
    | obj object =>
      have hmap : fields.map (·.placesIn object) = others.map (·.placesIn object) := by
        refine map_eq_of_forall₂ hfields fun f hf g hg => ?_
        obtain ⟨hname, hshape, hrequired, _⟩ := hg
        exact FieldShape.placesIn_congr hname hrequired (ih f hf hshape) object
      rw [places_record_obj, places_record_obj, List.flatMap_def, hmap, List.flatMap_def]
    | _ => rfl
  | union members ih =>
    obtain ⟨others, rfl, hmembers⟩ := same_union_iff.mp h
    have hboth := (List.forall₂_and_left members others).mpr ⟨ih, hmembers⟩
    exact places_union_eq (hboth.imp fun s t h => ⟨isNull_eq_of_same h.2, h.1 h.2 v⟩)

/-- Shapes that are the same accept the same values. -/
theorem accepts_iff_of_same (h : a.same b = true) (v : Json) : a.Accepts v ↔ b.Accepts v := by
  rw [← issues_eq_nil_iff, ← issues_eq_nil_iff]
  exact issues_eq_nil_iff_of_places_eq (places_eq_of_same h v)

/-- Shapes that are the same agree on whether `null` is accepted. -/
theorem acceptsNull_eq_of_same (h : a.same b = true) : a.acceptsNull = b.acceptsNull := by
  rw [Bool.eq_iff_iff, acceptsNull_iff, acceptsNull_iff]
  exact accepts_iff_of_same h .null

/-- **Sameness is an equivalence, and the check respects it**: shapes that are the same accept the
same values, with the same paths of issues for any other, and agree on `null`. -/
theorem check_respects_same :
    Equivalence (fun a b : Shape => a.same b = true) ∧
    ∀ a b : Shape, a.same b = true →
      (∀ v, (a.issues v = [] ↔ b.issues v = []) ∧
        (a.issues v).map Issue.path = (b.issues v).map Issue.path) ∧
      a.acceptsNull = b.acceptsNull := by
  refine ⟨⟨same_refl, same_symm, same_trans⟩, fun a b h => ⟨fun v => ?_, acceptsNull_eq_of_same h⟩⟩
  have hplaces := places_eq_of_same h v
  exact ⟨issues_eq_nil_iff_of_places_eq hplaces, map_path_issues_eq hplaces⟩

/-- Literals that repeat what they list, below a record in a union with a single member. -/
theorem check_respects_same_for_repeated_strings :
    let choice (values : List String) : Shape :=
      .union [.record ⟨"Generated_Shop_00000000", [⟨"colours", .sequence (.literal values), true, ""⟩]⟩]
    let a := choice ["red", "blue", "red"]
    let b := choice ["blue", "red"]
    let c := choice ["blue", "blue", "red"]
    let v : Json := .obj [("colours", .arr [.str "red", .str "green"])]
    a.same b = true ∧ b.same a = true ∧ b.same c = true ∧ a.same c = true ∧
      (a.issues v).map Issue.path = ["/colours/1"] ∧ (c.issues v).map Issue.path = ["/colours/1"] ∧
      a.acceptsNull = c.acceptsNull := by
  intro choice a b c v
  have hab : a.same b = true := by decide +kernel
  have hbc : b.same c = true := by decide +kernel
  have hv : (a.issues v).map Issue.path = ["/colours/1"] := by decide +kernel
  obtain ⟨hequivalence, hrespects⟩ := check_respects_same
  have hac : a.same c = true := hequivalence.trans hab hbc
  obtain ⟨hissues, hnull⟩ := hrespects a c hac
  exact ⟨hab, hequivalence.symm hab, hbc, hac, hv, (hissues v).2 ▸ hv, hnull⟩

end ToolShape.Shape
