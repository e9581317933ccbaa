import ToolShape.Proofs.Check.Places
import ToolShape.Proofs.Schema.Properties
import Mathlib.Logic.Relation

/-!
# Key order and unknown keys

The check looks an object's values up by the names of fields, and at nothing else in it. So an edit
that only orders keys anew, or adds a key that no field is named for, goes unnoticed, at whatever
depth it is made (`Json.Edit`):

> **Before and after any number of such edits, issues are found at the same places**
> (`Shape.places_eq_of_edited`).

The members of a union may look at one object through different records, or take it for a mapping;
therefore *no field* means no field of any record in the shape (`Shape.fieldNames`). One edit is
followed down the shape, and at each constructor it either happens below, in one item or under one
key, or happens here, where it changes no value that is looked up (`Json.Edit.get?`).
-/

set_option autoImplicit false

namespace ToolShape

open Json (Fields)

/-! ## Edits -/

/-- One edit of a value, where `known` are the keys that may not be added. -/
inductive Json.Edit (known : List String) : Json → Json → Prop where
  /-- An object's keys, which are pairwise different, stand in another order. -/
  | reorder {object other : Fields} (perm : object.Perm other) (nodup : object.keys.Nodup) :
    Edit known (.obj object) (.obj other)
  /-- An object gets a further key, anywhere among the others. -/
  | insert (before after : Fields) (key : String) (value : Json) (unknown : key ∉ known) :
    Edit known (.obj (before ++ after)) (.obj (before ++ (key, value) :: after))
  /-- A value inside of an array is edited. -/
  | item (before after : List Json) {v w : Json} (inner : Edit known v w) :
    Edit known (.arr (before ++ v :: after)) (.arr (before ++ w :: after))
  /-- A value inside of an object is edited. -/
  | field (before after : Fields) (key : String) {v w : Json} (inner : Edit known v w) :
    Edit known (.obj (before ++ (key, v) :: after)) (.obj (before ++ (key, w) :: after))

/-- A value is got from another by any number of edits. -/
abbrev Json.Edited (known : List String) : Json → Json → Prop :=
  Relation.ReflTransGen (Json.Edit known)

namespace Json

variable {known : List String} {v w : Json}

/-- No edit gives `null`, and none starts there. -/
theorem Edit.isNull_eq (h : Edit known v w) : v.isNull = w.isNull := by
  cases h <;> rfl

/-- Under a known key, an edit of an object leaves the value or edits it. -/
theorem Edit.get? {a b : Fields} (h : Edit known (.obj a) (.obj b)) {name : String}
    (hname : name ∈ known) :
    a.get? name = b.get? name ∨
      ∃ v w, a.get? name = some v ∧ b.get? name = some w ∧ Edit known v w := by
  generalize hv : Json.obj a = v at h
  generalize hw : Json.obj b = w at h
  cases h with
  | item => cases hv
  | reorder hperm hnodup =>
    cases hv
    cases hw
    exact Or.inl (Fields.get?_eq_of_perm hperm hnodup name)
  | insert before after key value hunknown =>
    cases hv
    cases hw
    have hne : ¬ key = name := fun h => hunknown (h ▸ hname)
    rw [Fields.get?_append, Fields.get?_append, Fields.get?, if_neg hne]
    exact Or.inl rfl
  | field before after key inner =>
    cases hv
    cases hw
    rw [Fields.get?_append, Fields.get?_append, Fields.get?, Fields.get?]
    cases before.get? name with
    | some first => exact Or.inl rfl
    | none =>
      by_cases hkey : key = name
      · rw [if_pos hkey, if_pos hkey]
        exact Or.inr ⟨_, _, rfl, rfl, inner⟩
      · rw [if_neg hkey, if_neg hkey]
        exact Or.inl rfl

end Json

/-! ## What the check looks for -/

/-- The names of the fields of all records in a shape. -/
def Shape.fieldNames (s : Shape) : List String := s.records.flatMap RecordShape.fieldNames

namespace Shape

variable {known : List String}

theorem mem_fieldNames_iff {s : Shape} {key : String} :
    key ∈ s.fieldNames ↔ ∃ r ∈ s.records, key ∈ r.fieldNames :=
  List.mem_flatMap

theorem fieldNames_record_subset {name : String} {fields : List FieldShape}
    (h : (record ⟨name, fields⟩).fieldNames ⊆ known) :
    ∀ f ∈ fields, f.name ∈ known ∧ f.shape.fieldNames ⊆ known := by
  intro f hf
  refine ⟨h ?_, fun key hkey => h ?_⟩
  · exact mem_fieldNames_iff.mpr ⟨_, mem_records_self name fields, List.mem_map_of_mem hf⟩
  · obtain ⟨r, hr, hmem⟩ := mem_fieldNames_iff.mp hkey
    exact mem_fieldNames_iff.mpr ⟨r, mem_records_of_field hf hr, hmem⟩

theorem fieldNames_union_subset {members : List Shape} (h : (union members).fieldNames ⊆ known) :
    ∀ s ∈ members, s.fieldNames ⊆ known := by
  intro s hs key hkey
  obtain ⟨r, hr, hmem⟩ := mem_fieldNames_iff.mp hkey
  exact h (mem_fieldNames_iff.mpr ⟨r, mem_records_of_member hs hr, hmem⟩)

/-! ## One edit, and many -/

/-- An edit of an object moves no issue of a field whose name is known, when none inside of its value
does. -/
theorem placesIn_eq_of_edit {f : FieldShape} (hname : f.name ∈ known) {a b : Fields}
    (h : Json.Edit known (.obj a) (.obj b))
    (hinner : ∀ {v w}, Json.Edit known v w → f.shape.places v = f.shape.places w) :
    f.placesIn a = f.placesIn b := by
  refine FieldShape.placesIn_eq rfl rfl ?_
  rcases h.get? hname with heq | ⟨v, w, hv, hw, hvw⟩
  · rw [heq]
    cases b.get? f.name with
    | none => exact .none
    | some w => exact .some ⟨rfl, rfl⟩
  · rw [hv, hw]
    exact .some ⟨hvw.isNull_eq, hinner hvw⟩

/-- **An edit moves no issue**, as long as the keys of all fields are known. By induction on the
shape; the edit is told apart where the shape looks into the value. -/
theorem places_eq_of_edit {s : Shape} (hknown : s.fieldNames ⊆ known) {v w : Json}
    (h : Json.Edit known v w) : s.places v = s.places w := by
  induction s generalizing v w with
  | unknown => rw [places, places, issues_unknown, issues_unknown]
  | scalar kind => cases h <;> cases kind <;> rfl
  | literal values => cases h <;> rfl
  | mapping => cases h <;> rfl
  | sequence items ih =>
    rw [fieldNames, records_sequence] at hknown
    cases h with
    | item before after inner =>
      have hsame (vs : List Json) : List.Forall₂ (fun v w => items.places v = items.places w) vs vs :=
        List.forall₂_same.mpr fun _ _ => rfl
      exact places_sequence_eq
        (List.rel_append (hsame before) (.cons (ih hknown inner) (hsame after)))
    | _ => rfl
  | record name fields ih =>
    have hobject : ∀ {a b : Fields}, Json.Edit known (.obj a) (.obj b) →
        (record ⟨name, fields⟩).places (.obj a) = (record ⟨name, fields⟩).places (.obj b) := by
      intro a b hedit
      rw [places_record_obj, places_record_obj]
      refine List.flatMap_congr fun f hf => ?_
      obtain ⟨hname, hinner⟩ := fieldNames_record_subset hknown f hf
      exact placesIn_eq_of_edit hname hedit (ih f hf hinner)
    cases h with
    | item => rfl
    | reorder hperm hnodup => exact hobject (.reorder hperm hnodup)
    | insert before after key value hunknown =>
      exact hobject (.insert before after key value hunknown)
    | field before after key inner => exact hobject (.field before after key inner)
  | union members ih =>
    have hmembers := fieldNames_union_subset hknown
    refine places_union_eq (List.forall₂_same.mpr fun s hs => ⟨rfl, ?_⟩)
    exact ih s hs (hmembers s hs) h

/-- **Any number of edits move no issue.** -/
theorem places_eq_of_edited {s : Shape} (hknown : s.fieldNames ⊆ known) {v w : Json}
    (h : Json.Edited known v w) : s.places v = s.places w := by
  induction h with
  | refl => rfl
  | tail _ hedit ih => exact ih.trans (places_eq_of_edit hknown hedit)

/-- **The check ignores the order of keys and the keys it does not know.** Let a value be edited by
ordering keys of objects anew and adding keys that no field in the shape is named for, at any depth
and any number of times. Then the paths of issues are the same, and so is the verdict. -/
theorem issues_of_edited (s : Shape) {v w : Json} (h : Json.Edited s.fieldNames v w) :
    (s.issues v).map Issue.path = (s.issues w).map Issue.path ∧
      (s.issues v = [] ↔ s.issues w = []) := by
  have hplaces := places_eq_of_edited (List.Subset.refl _) h
  exact ⟨map_path_issues_eq hplaces, issues_eq_nil_iff_of_places_eq hplaces⟩

/-- A point in a list gets a key between two that change places; its second number stays wrong. -/
theorem issues_of_edited_for_labelled_point :
    let point : RecordShape := ⟨"Generated_Point_00000000",
      [⟨"x", .scalar .integer, true, ""⟩, ⟨"y", .scalar .integer, true, ""⟩]⟩
    let s : Shape := .sequence (.union [.record point, .null])
    let v : Json := .arr [.null, .obj [("x", .num (.int 1)), ("y", .str "two")]]
    let w : Json :=
      .arr [.null, .obj [("y", .str "two"), ("label", .obj []), ("x", .num (.int 1))]]
    Json.Edited s.fieldNames v w ∧
      (s.issues v).map Issue.path = ["/1/y"] ∧ (s.issues w).map Issue.path = ["/1/y"] := by
  intro point s v w
  let swapped : Json := .arr [.null, .obj [("y", .str "two"), ("x", .num (.int 1))]]
  have hreorder : Json.Edit s.fieldNames v swapped :=
    .item [.null] [] (.reorder (.swap _ _ _) (by decide))
  have hinsert : Json.Edit s.fieldNames swapped w :=
    .item [.null] [] (.insert [_] [_] "label" (.obj []) (by decide +kernel))
  have hedited : Json.Edited s.fieldNames v w := .tail (.single hreorder) hinsert
  have hv : (s.issues v).map Issue.path = ["/1/y"] := by decide +kernel
  exact ⟨hedited, hv, (issues_of_edited s hedited).1 ▸ hv⟩

end Shape

end ToolShape
