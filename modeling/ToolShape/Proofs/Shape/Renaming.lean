import ToolShape.Proofs.Check.Places
import ToolShape.Proofs.Shape.Union

/-!
# Renaming records

A renaming changes the names of records and nothing else. Two shapes with one image under a renaming
are the same tree as far as the renaming tells names apart; under `Shape.nameless`, as far as
anything but names goes.

> **The union rule decides alike on two lists with one image**, as long as neither repeats a name
> (`Shape.rename_unionOf_eq`).

Names take part in sameness, so this is not immediate: alternatives that differ only by name are one
alternative after the renaming, and two before it. What saves the rule is that a member with a
record is never dropped. And a member without records is its own image.

Issues tell places by fields and items, so renaming moves none (`Shape.places_rename`).
-/

set_option autoImplicit false

namespace ToolShape

mutual

/-- Changes the names of all records of a shape. -/
def Shape.rename (f : String → String) : Shape → Shape
  | .sequence items => .sequence (items.rename f)
  | .record r => .record (r.rename f)
  | .union members => .union (Shape.renameAll f members)
  | s => s

def RecordShape.rename (f : String → String) : RecordShape → RecordShape
  | ⟨name, fields⟩ => ⟨f name, FieldShape.renameAll f fields⟩

def FieldShape.rename (f : String → String) : FieldShape → FieldShape
  | ⟨name, shape, required, description⟩ => ⟨name, shape.rename f, required, description⟩

def Shape.renameAll (f : String → String) : List Shape → List Shape
  | [] => []
  | s :: rest => s.rename f :: Shape.renameAll f rest

def FieldShape.renameAll (f : String → String) : List FieldShape → List FieldShape
  | [] => []
  | field :: rest => field.rename f :: FieldShape.renameAll f rest

end

/-- A shape without the names of its records. -/
def Shape.nameless (s : Shape) : Shape := s.rename fun _ => ""

variable {f : String → String}

/-! ## What a renaming does -/

theorem Shape.renameAll_eq_map (members : List Shape) :
    Shape.renameAll f members = members.map (Shape.rename f) := by
  induction members with
  | nil => rfl
  | cons s rest ih => rw [Shape.renameAll, ih, List.map_cons]

theorem FieldShape.renameAll_eq_map (fields : List FieldShape) :
    FieldShape.renameAll f fields = fields.map (FieldShape.rename f) := by
  induction fields with
  | nil => rfl
  | cons field rest ih => rw [FieldShape.renameAll, ih, List.map_cons]

@[simp] theorem FieldShape.name_rename (field : FieldShape) : (field.rename f).name = field.name := by
  cases field
  rfl

@[simp] theorem FieldShape.shape_rename (field : FieldShape) :
    (field.rename f).shape = field.shape.rename f := by
  cases field
  rfl

@[simp] theorem FieldShape.required_rename (field : FieldShape) :
    (field.rename f).required = field.required := by
  cases field
  rfl

namespace Shape

@[simp] theorem rename_unknown : unknown.rename f = .unknown := rfl
@[simp] theorem rename_mapping : mapping.rename f = .mapping := rfl

@[simp] theorem rename_scalar (kind : Scalar) : (scalar kind).rename f = .scalar kind :=
  rfl

@[simp] theorem rename_literal (values : List String) :
    (literal values).rename f = .literal values := rfl

@[simp] theorem rename_sequence (items : Shape) :
    (sequence items).rename f = .sequence (items.rename f) := rfl

@[simp] theorem rename_record (name : String) (fields : List FieldShape) :
    (record ⟨name, fields⟩).rename f = .record ⟨f name, fields.map (FieldShape.rename f)⟩ := by
  show record ⟨f name, FieldShape.renameAll f fields⟩ = _
  rw [FieldShape.renameAll_eq_map]

@[simp] theorem rename_union (members : List Shape) :
    (union members).rename f = .union (members.map (rename f)) := by
  show union (renameAll f members) = _
  rw [renameAll_eq_map]

@[simp] theorem isNull_rename (s : Shape) : (s.rename f).isNull = s.isNull := by
  cases s with
  | record r =>
    obtain ⟨name, fields⟩ := r
    rw [rename_record]
    rfl
  | _ => simp [isNull]

theorem members_rename (s : Shape) : (s.rename f).members = s.members.map (rename f) := by
  cases s with
  | union ms => simp
  | record r =>
    obtain ⟨name, fields⟩ := r
    simp [members]
  | _ => simp [members]

/-- The names of a renamed shape are the renamed names. -/
theorem recordNames_rename (s : Shape) : (s.rename f).recordNames = s.recordNames.map f := by
  induction s with
  | sequence items ih => simp [ih]
  | record name fields ih =>
    rw [rename_record, recordNames_record, recordNames_record, List.map_append, List.map_flatMap,
      List.flatMap_map]
    congr 1
    exact List.flatMap_congr fun field hfield => by rw [FieldShape.shape_rename, ih field hfield]
  | union members ih =>
    rw [rename_union, recordNames_union, recordNames_union, List.map_flatMap, List.flatMap_map]
    exact List.flatMap_congr ih
  | _ => simp

/-- A shape without records is its own image. -/
theorem rename_eq_self {s : Shape} (h : s.recordNames = []) : s.rename f = s := by
  induction s with
  | sequence items ih =>
    rw [recordNames_sequence] at h
    rw [rename_sequence, ih h]
  | record name fields => simp at h
  | union members ih =>
    rw [recordNames_union, List.flatMap_eq_nil_iff] at h
    have hmap : members.map (rename f) = members :=
      (List.map_congr_left fun s hs => ih s hs (h s hs)).trans (List.map_id members)
    rw [rename_union, hmap]
  | _ => simp

/-! ## Renaming and the union rule -/

/-- Shapes of different names are the same when they have no records and are the same once
renamed. -/
theorem same_iff_same_rename {s t : Shape} (h : s.recordNames.Disjoint t.recordNames) :
    s.same t = true ↔ t.recordNames = [] ∧ (s.rename f).same (t.rename f) = true := by
  constructor
  · intro hsame
    have hnames := recordNames_eq_of_same hsame
    have hnil : t.recordNames = [] :=
      List.eq_nil_iff_forall_not_mem.mpr fun name hname => h (hnames ▸ hname) hname
    rw [rename_eq_self hnil, rename_eq_self (hnames.trans hnil)]
    exact ⟨hnil, hsame⟩
  · rintro ⟨hnil, hsame⟩
    have hnames := recordNames_eq_of_same hsame
    rw [recordNames_rename, recordNames_rename, hnil, List.map_nil, List.map_eq_nil_iff] at hnames
    rwa [rename_eq_self hnil, rename_eq_self hnames] at hsame

theorem any_same_iff {kept : List Shape} {s : Shape}
    (h : (kept.flatMap recordNames).Disjoint s.recordNames) :
    kept.any (·.same s) = true ↔
      s.recordNames = [] ∧ (kept.map (rename f)).any (·.same (s.rename f)) = true := by
  rw [List.any_map, List.any_eq_true, List.any_eq_true]
  have hiff : ∀ t ∈ kept, t.same s = true ↔
      s.recordNames = [] ∧ (t.rename f).same (s.rename f) = true := by
    intro t ht
    exact same_iff_same_rename fun name hname => h (List.mem_flatMap.mpr ⟨t, ht, hname⟩)
  constructor
  · rintro ⟨t, ht, hsame⟩
    exact ⟨((hiff t ht).mp hsame).1, t, ht, ((hiff t ht).mp hsame).2⟩
  · rintro ⟨hnil, t, ht, hsame⟩
    exact ⟨t, ht, (hiff t ht).mpr ⟨hnil, hsame⟩⟩

theorem flatMap_recordNames_distinct_subset (all : List Shape) :
    (distinct all).flatMap recordNames ⊆ all.flatMap recordNames := by
  intro name hname
  obtain ⟨s, hs, hmem⟩ := List.mem_flatMap.mp hname
  exact List.mem_flatMap.mpr ⟨s, mem_of_mem_distinct hs, hmem⟩

/-- Members with one image are kept or dropped alike. -/
theorem map_rename_distinct_eq {as bs : List Shape} (ha : (as.flatMap recordNames).Nodup)
    (hb : (bs.flatMap recordNames).Nodup) (h : as.map (rename f) = bs.map (rename f)) :
    (distinct as).map (rename f) = (distinct bs).map (rename f) := by
  induction as using List.reverseRecOn generalizing bs with
  | nil =>
    rw [List.map_eq_nil_iff.mp (h.symm : bs.map (rename f) = [])]
  | append_singleton as s ih =>
    rcases List.eq_nil_or_concat bs with rfl | ⟨bs, t, rfl⟩
    · simp at h
    · rw [List.concat_eq_append] at h hb ⊢
      rw [List.map_append, List.map_append] at h
      obtain ⟨hinit, hlast⟩ := List.append_inj' h rfl
      have hst : s.rename f = t.rename f := List.singleton_inj.mp hlast
      rw [List.flatMap_append, List.flatMap_singleton, List.nodup_append'] at ha hb
      have hkept := ih ha.1 hb.1 hinit
      have hnil : s.recordNames = [] ↔ t.recordNames = [] := by
        have hnames := congrArg recordNames hst
        rw [recordNames_rename, recordNames_rename] at hnames
        rw [← List.map_eq_nil_iff (f := f), hnames, List.map_eq_nil_iff]
      -- So far the same members are kept, and whether the last one joins them is seen in the image.
      have hany : (distinct as).any (·.same s) = (distinct bs).any (·.same t) := by
        rw [Bool.eq_iff_iff, any_same_iff fun name hname =>
            ha.2.2 (flatMap_recordNames_distinct_subset as hname),
          any_same_iff fun name hname => hb.2.2 (flatMap_recordNames_distinct_subset bs hname),
          hkept, hst, hnil]
      rw [distinct_append_singleton, distinct_append_singleton, addMember, addMember, hany]
      split
      · exact hkept
      · rw [List.map_append, List.map_append, hkept, List.map_singleton, List.map_singleton, hst]

theorem rename_ofMembers (ms : List Shape) :
    (ofMembers ms).rename f = ofMembers (ms.map (rename f)) := by
  match ms with
  | [] => simp [ofMembers]
  | [s] => simp [ofMembers]
  | s :: t :: rest => simp [ofMembers]

/-- **The union rule decides alike on alternatives with one image**, when neither list repeats a
name. -/
theorem rename_unionOf_eq {as bs : List Shape} (ha : (as.flatMap recordNames).Nodup)
    (hb : (bs.flatMap recordNames).Nodup) (h : as.map (rename f) = bs.map (rename f)) :
    (unionOf as).rename f = (unionOf bs).rename f := by
  have hmembers : (as.flatMap members).map (rename f) = (bs.flatMap members).map (rename f) := by
    have hflat := congrArg (List.flatMap members) h
    simpa only [List.flatMap_map, members_rename, List.map_flatMap] using hflat
  rw [← flatMap_recordNames_members] at ha hb
  rw [unionOf, unionOf, rename_ofMembers, rename_ofMembers, map_rename_distinct_eq ha hb hmembers]

theorem rename_nullable_eq {s t : Shape} (hs : s.recordNames.Nodup) (ht : t.recordNames.Nodup)
    (h : s.rename f = t.rename f) : s.nullable.rename f = t.nullable.rename f :=
  rename_unionOf_eq (by simpa using hs) (by simpa using ht) (by simp [h])

end Shape

/-! ## Renaming and issues -/

/-- **Renaming moves no issue.** -/
theorem Shape.places_rename (s : Shape) (v : Json) : (s.rename f).places v = s.places v := by
  induction s generalizing v with
  | sequence items ih =>
    rw [Shape.rename_sequence]
    cases v with
    | arr vs => exact Shape.places_sequence_eq (List.forall₂_same.mpr fun w _ => ih w)
    | _ => simp [Shape.places, Shape.issues, Shape.check_sequence]
  | record name fields ih =>
    rw [Shape.rename_record]
    cases v with
    | obj object =>
      rw [Shape.places_record_obj, Shape.places_record_obj, List.flatMap_map]
      refine List.flatMap_congr fun field hfield => ?_
      refine FieldShape.placesIn_congr field.name_rename field.required_rename (fun v => ?_) object
      rw [FieldShape.shape_rename, ih field hfield]
    | _ => simp [Shape.places, Shape.issues, Shape.check_record]
  | union members ih =>
    rw [Shape.rename_union]
    refine Shape.places_union_eq (List.forall₂_map_left_iff.mpr (List.forall₂_same.mpr ?_))
    exact fun s hs => ⟨s.isNull_rename, ih s hs v⟩
  | _ => simp

end ToolShape
