import ToolShape.Proofs.Conversion.WellFormed
import ToolShape.Proofs.Json.Reading
import ToolShape.Shape.Encode

/-!
# How deep wire forms nest

Wire forms hold no numbers and name no key twice (`Shape.tidy_encode`). They nest deeper than shapes:
a list takes one level and a record three, its own object, its list of fields and a field; and a
union, which is no level of a shape at all, takes two.

> **A formed shape of height `n` has a wire form that nests at most `5 * n + 4` levels deep**
> (`Shape.nesting_encode_le`).

That no union stands directly in another one is what makes the bound linear.
-/

set_option autoImplicit false

namespace ToolShape

open Json (Fields Tidy)

/-! ## Lists of values -/

namespace Json

theorem nestingOfItems_le_iff {items : List Json} {n : Nat} :
    nestingOfItems items ≤ n ↔ ∀ v ∈ items, v.nesting ≤ n := by
  induction items with
  | nil => simp [nestingOfItems]
  | cons v rest ih => rw [nestingOfItems, Nat.max_le, List.forall_mem_cons, ih]

theorem nestingOfFields_le_iff {fields : Fields} {n : Nat} :
    nestingOfFields fields ≤ n ↔ ∀ p ∈ fields, p.2.nesting ≤ n := by
  induction fields with
  | nil => simp [nestingOfFields]
  | cons p rest ih =>
    obtain ⟨k, v⟩ := p
    rw [nestingOfFields, Nat.max_le, List.forall_mem_cons, ih]

theorem nesting_arr_le_iff {items : List Json} {n : Nat} :
    (arr items).nesting ≤ n + 1 ↔ ∀ v ∈ items, v.nesting ≤ n := by
  rw [nesting, Nat.succ_le_succ_iff, nestingOfItems_le_iff]

theorem nesting_obj_le_iff {fields : Fields} {n : Nat} :
    (obj fields).nesting ≤ n + 1 ↔ ∀ p ∈ fields, p.2.nesting ≤ n := by
  rw [nesting, Nat.succ_le_succ_iff, nestingOfFields_le_iff]

@[simp] theorem nesting_str (s : String) : (str s).nesting = 0 := by
  rw [nesting] <;> simp

@[simp] theorem nesting_bool (b : Bool) : (bool b).nesting = 0 := by
  rw [nesting] <;> simp

end Json

theorem Shape.encodeAll_eq_map (members : List Shape) :
    Shape.encodeAll members = members.map Shape.encode := by
  induction members with
  | nil => rfl
  | cons s rest ih => rw [Shape.encodeAll, ih, List.map_cons]

theorem FieldShape.encodeAll_eq_map (fields : List FieldShape) :
    FieldShape.encodeAll fields = fields.map FieldShape.encode := by
  induction fields with
  | nil => rfl
  | cons f rest ih => rw [FieldShape.encodeAll, ih, List.map_cons]

/-! ## Wire forms are tidy -/

theorem FieldShape.tidy_encode_of {f : FieldShape} (h : Tidy f.shape.encode) : Tidy f.encode := by
  obtain ⟨name, shape, required, description⟩ := f
  rw [FieldShape.encode, descriptionFields]
  split
  · refine .obj (by simp [Fields.keys]) ?_
    simpa using ⟨.str name, h, .bool required⟩
  · refine .obj (by simp [Fields.keys]) ?_
    simpa using ⟨.str name, h, .bool required, .str description⟩

theorem RecordShape.tidy_fields {r : RecordShape} (h : ∀ f ∈ r.fields, Tidy f.shape.encode) :
    ∀ p ∈ r.encodeFields, Tidy p.2 := by
  obtain ⟨name, fields⟩ := r
  rw [RecordShape.encodeFields, FieldShape.encodeAll_eq_map]
  have hfields : ∀ v ∈ fields.map FieldShape.encode, Tidy v :=
    List.forall_mem_map.mpr fun f hf => FieldShape.tidy_encode_of (h f hf)
  simpa using ⟨.str name, .arr hfields⟩

theorem RecordShape.keys_encodeFields (r : RecordShape) :
    Fields.keys r.encodeFields = ["name", "fields"] := by
  obtain ⟨name, fields⟩ := r
  rfl

theorem Shape.tidy_encode (s : Shape) : Tidy s.encode := by
  induction s with
  | unknown | mapping =>
    rw [encode]
    exact .obj (by simp [Fields.keys]) (by simpa using .str _)
  | scalar kind =>
    rw [encode]
    exact .obj (by simp [Fields.keys]) (by simpa using ⟨.str _, .str _⟩)
  | literal values =>
    rw [encode]
    have hvalues : ∀ v ∈ values.map Json.str, Tidy v :=
      List.forall_mem_map.mpr fun s _ => .str s
    exact .obj (by simp [Fields.keys]) (by simpa using ⟨.str _, .arr hvalues⟩)
  | sequence items ih =>
    rw [encode]
    exact .obj (by simp [Fields.keys]) (by simpa using ⟨.str _, ih⟩)
  | record name fields ih =>
    rw [encode]
    refine .obj ?_ (List.forall_mem_cons.mpr ⟨.str _, RecordShape.tidy_fields ih⟩)
    rw [Fields.keys, List.map_cons, ← Fields.keys, RecordShape.keys_encodeFields]
    decide
  | union members ih =>
    rw [encode, encodeAll_eq_map]
    have hmembers : ∀ v ∈ members.map Shape.encode, Tidy v := List.forall_mem_map.mpr ih
    exact .obj (by simp [Fields.keys]) (by simpa using ⟨.str _, .arr hmembers⟩)

theorem RecordShape.tidy_encode (r : RecordShape) : Tidy r.encode := by
  refine .obj ?_ (RecordShape.tidy_fields fun f _ => f.shape.tidy_encode)
  rw [RecordShape.keys_encodeFields]
  decide

/-! ## Bounds -/

theorem FieldShape.nesting_encode_le {f : FieldShape} {n : Nat} (h : f.shape.encode.nesting ≤ n) :
    f.encode.nesting ≤ n + 1 := by
  obtain ⟨name, shape, required, description⟩ := f
  rw [FieldShape.encode, Json.nesting_obj_le_iff, descriptionFields]
  split <;> simpa using h

theorem RecordShape.nesting_fields_le {r : RecordShape} {n : Nat}
    (h : ∀ f ∈ r.fields, f.shape.encode.nesting ≤ n) :
    ∀ p ∈ r.encodeFields, p.2.nesting ≤ n + 2 := by
  obtain ⟨name, fields⟩ := r
  have hfields : (Json.arr (fields.map FieldShape.encode)).nesting ≤ n + 2 :=
    Json.nesting_arr_le_iff.mpr
      (List.forall_mem_map.mpr fun f hf => FieldShape.nesting_encode_le (h f hf))
  rw [RecordShape.encodeFields, FieldShape.encodeAll_eq_map]
  simpa using hfields

theorem RecordShape.nesting_encode_le {r : RecordShape} {n : Nat}
    (h : ∀ f ∈ r.fields, f.shape.encode.nesting ≤ n) : r.encode.nesting ≤ n + 3 :=
  Json.nesting_obj_le_iff.mpr (RecordShape.nesting_fields_le h)

theorem Shape.bounds_of_le_two {s : Shape} (h : s.encode.nesting ≤ 2) :
    s.encode.nesting ≤ 5 * s.height + 4 ∧
      (s.isUnion = false → s.encode.nesting ≤ 5 * s.height + 2) :=
  ⟨by omega, fun _ => by omega⟩

/-- **The wire form of a formed shape nests at most five levels for each level of the shape**, and
two less if the shape is no union. -/
theorem Shape.nesting_encode_le {s : Shape} (h : s.AllFormed) :
    s.encode.nesting ≤ 5 * s.height + 4 ∧
      (s.isUnion = false → s.encode.nesting ≤ 5 * s.height + 2) := by
  induction s with
  | unknown | mapping | scalar =>
    exact bounds_of_le_two (by simp [encode, Json.nesting, Json.nestingOfFields])
  | literal values =>
    have hvalues : (Json.arr (values.map Json.str)).nesting ≤ 1 :=
      Json.nesting_arr_le_iff.mpr (List.forall_mem_map.mpr fun s _ => by simp)
    refine bounds_of_le_two ?_
    rw [encode, Json.nesting_obj_le_iff]
    simpa using hvalues
  | sequence items ih =>
    obtain ⟨hitems, -⟩ := ih fun t ht => h t (.item ht)
    have hsequence : (sequence items).encode.nesting ≤ 5 * items.height + 5 := by
      rw [encode, Json.nesting_obj_le_iff]
      simpa using hitems
    rw [height]
    constructor
    · omega
    · intro _
      omega
  | record name fields ih =>
    have hfields : ∀ f ∈ fields, f.shape.encode.nesting ≤ 5 * FieldShape.heightOfAll fields + 4 := by
      intro f hf
      have hheight := FieldShape.heightOfAll_le_iff.mp (Nat.le_refl _) f hf
      have hnesting := (ih f hf fun t ht => h t (.field hf ht)).1
      omega
    have hrecord : (record ⟨name, fields⟩).encode.nesting ≤ 5 * FieldShape.heightOfAll fields + 7 := by
      rw [encode, Json.nesting_obj_le_iff, List.forall_mem_cons]
      exact ⟨by simp, RecordShape.nesting_fields_le hfields⟩
    rw [height, RecordShape.height]
    constructor
    · omega
    · intro _
      omega
  | union members ih =>
    obtain ⟨-, hflat, -⟩ := h.formed
    have hmembers : ∀ v ∈ members.map Shape.encode, v.nesting ≤ 5 * (union members).height + 2 := by
      refine List.forall_mem_map.mpr fun s hs => ?_
      have hheight := height_union_le_iff.mp (Nat.le_refl _) s hs
      have hnesting := (ih s hs fun t ht => h t (.member hs ht)).2 (hflat s hs)
      omega
    have hunion : (union members).encode.nesting ≤ 5 * (union members).height + 4 := by
      have harr : (Json.arr (members.map Shape.encode)).nesting ≤ 5 * (union members).height + 3 :=
        Json.nesting_arr_le_iff.mpr hmembers
      rw [encode, encodeAll_eq_map, Json.nesting_obj_le_iff]
      simpa using harr
    exact ⟨hunion, fun hnot => by cases hnot⟩

theorem RecordShape.FormedTop.nesting_encode_le {r : RecordShape} {limit : Nat}
    (h : r.FormedTop limit) : r.encode.nesting ≤ 5 * limit + 7 := by
  refine RecordShape.nesting_encode_le (n := 5 * limit + 4) fun f hf => ?_
  have hheight := RecordShape.height_le_succ_iff.mp h.height_le f hf
  have hnesting := (Shape.nesting_encode_le (h.parts f hf)).1
  omega

end ToolShape
