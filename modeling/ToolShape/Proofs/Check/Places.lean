import ToolShape.Proofs.Check.Acceptance
import ToolShape.Proofs.Shape.Sameness

/-!
# Where issues are

An issue says where something is wrong, and what. Two checks may agree on the first and not on the
second, since messages quote values and spell out unions. What agrees for good reasons is the list
of places, `Shape.places`.

> **Two checks find issues at the same places when the checks of their parts do.**

There is one such statement for each constructor that has parts, and each lets both the shape and the
value differ: `places_sequence_eq`, `FieldShape.placesIn_eq`, `places_union_eq`. A union is the case
to watch. Which members accept, and how many are not `null`, decides whether it reports through a
member or for itself, and both can be told from the members' places.
-/

set_option autoImplicit false

namespace ToolShape

/-- Where the issues of a value are. -/
def Shape.places (s : Shape) (v : Json) : List Place := (s.issues v).map Issue.place

/-- Where the issues are of what an object holds under a field's name. -/
def FieldShape.placesIn (f : FieldShape) (object : Json.Fields) : List Place :=
  (f.issuesIn object).map Issue.place

theorem Issue.map_place_under (outer : Place) (issues : List Issue) :
    (issues.map (Issue.under outer)).map Issue.place = (issues.map Issue.place).map (outer ++ ·) := by
  simp [Issue.under]

namespace Shape

variable {s t : Shape} {v w : Json}

theorem places_eq_nil_iff : s.places v = [] ↔ s.issues v = [] := by
  rw [places, List.map_eq_nil_iff]

/-- Checks that find issues at the same places give the same verdict. -/
theorem issues_eq_nil_iff_of_places_eq (h : s.places v = t.places w) :
    s.issues v = [] ↔ t.issues w = [] := by
  rw [← places_eq_nil_iff, h, places_eq_nil_iff]

/-- Paths are written from places alone. -/
theorem map_path_issues (s : Shape) (v : Json) :
    (s.issues v).map Issue.path = (s.places v).map Place.path := by
  rw [places, List.map_map]
  rfl

theorem map_path_issues_eq (h : s.places v = t.places w) :
    (s.issues v).map Issue.path = (t.issues w).map Issue.path := by
  rw [map_path_issues, h, map_path_issues]

/-! ## Lists -/

theorem places_sequence_arr (items : Shape) (vs : List Json) :
    (sequence items).places (.arr vs) =
      vs.zipIdx.flatMap fun p => (items.places p.1).map (Step.item p.2 :: ·) := by
  rw [places, issues_sequence_arr, List.map_flatMap]
  exact List.flatMap_congr fun p _ => Issue.map_place_under _ _

theorem places_sequence_eq {vs ws : List Json}
    (h : List.Forall₂ (fun v w => s.places v = t.places w) vs ws) :
    (sequence s).places (.arr vs) = (sequence t).places (.arr ws) := by
  rw [places_sequence_arr, places_sequence_arr]
  -- The index runs along with both lists, so the induction is for any first index.
  generalize 0 = index
  induction h generalizing index with
  | nil => rfl
  | cons first _ ih =>
    rw [List.zipIdx_cons, List.zipIdx_cons, List.flatMap_cons, List.flatMap_cons, first, ih]

/-! ## Records -/

theorem places_record_obj (name : String) (fields : List FieldShape) (object : Json.Fields) :
    (record ⟨name, fields⟩).places (.obj object) = fields.flatMap (·.placesIn object) := by
  rw [places, issues_record_obj, List.map_flatMap]
  rfl

end Shape

theorem FieldShape.placesIn_of_none {f : FieldShape} {object : Json.Fields}
    (h : object.get? f.name = none) :
    f.placesIn object = if f.required then [[.field f.name]] else [] := by
  rw [placesIn, issuesIn_of_none h]
  split <;> rfl

theorem FieldShape.placesIn_of_some {f : FieldShape} {object : Json.Fields} {v : Json}
    (h : object.get? f.name = some v) :
    f.placesIn object =
      if v.isNull && !f.required then [] else (f.shape.places v).map (Step.field f.name :: ·) := by
  rw [placesIn, issuesIn_of_some h]
  split
  · rfl
  · exact Issue.map_place_under _ _

/-- Two fields of one name find issues at the same places, when under that name stands a value for
both or for neither, `null` for both or for neither, and their shapes agree on it. -/
theorem FieldShape.placesIn_eq {f g : FieldShape} {a b : Json.Fields} (hname : f.name = g.name)
    (hrequired : f.required = g.required)
    (h : Option.Rel (fun v w => v.isNull = w.isNull ∧ f.shape.places v = g.shape.places w)
      (a.get? f.name) (b.get? g.name)) :
    f.placesIn a = g.placesIn b := by
  cases ha : a.get? f.name with
  | none =>
    cases hb : b.get? g.name with
    | none => rw [placesIn_of_none ha, placesIn_of_none hb, hname, hrequired]
    | some w =>
      rw [ha, hb] at h
      cases h
  | some v =>
    cases hb : b.get? g.name with
    | none =>
      rw [ha, hb] at h
      cases h
    | some w =>
      rw [ha, hb] at h
      obtain ⟨hnull, hplaces⟩ := Option.rel_some_some.mp h
      rw [placesIn_of_some ha, placesIn_of_some hb, hname, hrequired, hnull, hplaces]

/-- The same with one object on both sides. -/
theorem FieldShape.placesIn_congr {f g : FieldShape} (hname : f.name = g.name)
    (hrequired : f.required = g.required) (h : ∀ v, f.shape.places v = g.shape.places v)
    (object : Json.Fields) : f.placesIn object = g.placesIn object := by
  refine FieldShape.placesIn_eq hname hrequired ?_
  rw [hname]
  cases object.get? g.name with
  | none => exact .none
  | some v => exact .some ⟨rfl, h v⟩

namespace Shape

/-! ## Unions -/

/-- Two unions find issues at the same places when their members do one by one, and are `null` one by
one. -/
theorem places_union_eq {as bs : List Shape} {v w : Json}
    (h : List.Forall₂ (fun s t => s.isNull = t.isNull ∧ s.places v = t.places w) as bs) :
    (union as).places v = (union bs).places w := by
  have hany : anyAccepts as v [] = anyAccepts bs w [] := by
    rw [Bool.eq_iff_iff, anyAccepts_iff, anyAccepts_iff]
    exact exists_mem_iff_of_forall₂ h fun s _ t hst => issues_eq_nil_iff_of_places_eq hst.2
  have hothers := List.rel_filter (p := (!·.isNull)) (q := (!·.isNull))
    (fun s t hst => by simp only [hst.1]) h
  unfold places
  rw [issues_union, issues_union, hany]
  split
  · rfl
  · revert hothers
    generalize as.filter (!·.isNull) = first
    generalize bs.filter (!·.isNull) = second
    rintro (_ | ⟨⟨_, hplaces⟩, _ | _⟩)
    · rfl
    · exact hplaces
    · rfl

end Shape

end ToolShape
