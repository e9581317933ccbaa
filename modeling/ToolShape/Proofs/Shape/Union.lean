import ToolShape.Proofs.Check.Sameness
import Mathlib.Data.List.Induction
import Mathlib.Data.List.Nodup

/-!
# The union rule, and what it keeps

Three things are true of `Shape.unionOf`, and every result about conversions rests on one of them.

* It accepts what some alternative accepts (`Shape.accepts_unionOf_iff`). A dropped member is the
  same as one that stays, and shapes that are the same accept the same values.
* It gives normal forms to normal forms (`Shape.normal_unionOf`): the rule flattens one level only,
  which is enough when no alternative is a union of unions.
* It drops no record, as long as no two records share a name (`Shape.records_unionOf`): a member
  that holds a record is the same as no other one.
-/

set_option autoImplicit false

namespace ToolShape.Shape

/-! ## The distinct members of a list

The rule adds member after member, so the facts go by induction on the list from its end. -/

theorem distinct_append (all more : List Shape) :
    distinct (all ++ more) = more.foldl addMember (distinct all) :=
  List.foldl_append

theorem distinct_append_singleton (all : List Shape) (s : Shape) :
    distinct (all ++ [s]) = addMember (distinct all) s :=
  distinct_append all [s]

theorem mem_addMember {kept : List Shape} {s t : Shape} (h : t ∈ addMember kept s) :
    t ∈ kept ∨ t = s := by
  unfold addMember at h
  split at h
  · exact Or.inl h
  · simpa using h

theorem mem_addMember_of_mem {kept : List Shape} {s t : Shape} (h : t ∈ kept) :
    t ∈ addMember kept s := by
  unfold addMember
  split
  · exact h
  · exact List.mem_append_left [s] h

theorem exists_mem_addMember_same (kept : List Shape) (s : Shape) :
    ∃ t ∈ addMember kept s, t.same s = true := by
  unfold addMember
  split
  · next h => exact List.any_eq_true.mp h
  · exact ⟨s, by simp, s.same_refl⟩

theorem mem_of_mem_distinct {all : List Shape} {t : Shape} (h : t ∈ distinct all) : t ∈ all := by
  induction all using List.reverseRecOn with
  | nil => exact h
  | append_singleton all s ih =>
    rw [distinct_append_singleton] at h
    rcases mem_addMember h with hkept | rfl
    · exact List.mem_append_left _ (ih hkept)
    · simp

/-- Whatever is added, something that is the same is there afterwards. -/
theorem exists_mem_foldl_addMember_same (kept : List Shape) {all : List Shape} {s : Shape}
    (h : s ∈ all) : ∃ t ∈ all.foldl addMember kept, t.same s = true := by
  induction all using List.reverseRecOn with
  | nil => cases h
  | append_singleton all last ih =>
    rw [List.foldl_concat]
    rcases List.mem_append.mp h with hmem | hmem
    · obtain ⟨t, ht, hsame⟩ := ih hmem
      exact ⟨t, mem_addMember_of_mem ht, hsame⟩
    · rw [List.mem_singleton.mp hmem]
      exact exists_mem_addMember_same _ last

/-- Whatever is dropped is the same as something that stays. -/
theorem exists_mem_distinct_same {all : List Shape} {s : Shape} (h : s ∈ all) :
    ∃ t ∈ distinct all, t.same s = true :=
  exists_mem_foldl_addMember_same [] h

theorem pairwise_distinct (all : List Shape) :
    (distinct all).Pairwise fun s t => s.same t = false := by
  induction all using List.reverseRecOn with
  | nil => exact List.Pairwise.nil
  | append_singleton all s ih =>
    rw [distinct_append_singleton, addMember]
    split
    · exact ih
    · next hnew =>
      rw [List.pairwise_append]
      refine ⟨ih, List.pairwise_singleton _ s, fun t ht s' hs' => ?_⟩
      rw [List.mem_singleton.mp hs']
      exact Bool.eq_false_iff.mpr fun h => hnew (List.any_eq_true.mpr ⟨t, ht, h⟩)

theorem distinct_eq_nil_iff {all : List Shape} : distinct all = [] ↔ all = [] := by
  constructor
  · intro h
    refine List.eq_nil_iff_forall_not_mem.mpr fun s hs => ?_
    obtain ⟨t, ht, _⟩ := exists_mem_distinct_same hs
    rw [h] at ht
    cases ht
  · rintro rfl
    rfl

/-- **Dropping members drops no record**, when no two records of the members share a name. -/
theorem flatMap_records_distinct {all : List Shape} (h : (all.flatMap recordNames).Nodup) :
    (distinct all).flatMap records = all.flatMap records := by
  induction all using List.reverseRecOn with
  | nil => rfl
  | append_singleton all s ih =>
    simp only [List.flatMap_append, List.flatMap_singleton] at h ⊢
    obtain ⟨hall, _, hdisjoint⟩ := List.nodup_append.mp h
    rw [distinct_append_singleton, addMember]
    split
    · next hany =>
      -- The same member came before, so its names are names of `s` as well: there are none.
      obtain ⟨t, ht, hsame⟩ := List.any_eq_true.mp hany
      have hnames : s.recordNames = [] := by
        refine List.eq_nil_iff_forall_not_mem.mpr fun name hname => ?_
        have ht' : name ∈ all.flatMap recordNames :=
          List.mem_flatMap.mpr ⟨t, mem_of_mem_distinct ht, recordNames_eq_of_same hsame ▸ hname⟩
        exact hdisjoint name ht' name hname rfl
      rw [ih hall, List.map_eq_nil_iff.mp hnames, List.append_nil]
    · rw [List.flatMap_append, List.flatMap_singleton, ih hall]

/-! ## The members an alternative contributes -/

@[simp] theorem members_union (ms : List Shape) : (union ms).members = ms := rfl

/-- Whether a shape is a union. -/
def isUnion : Shape → Bool
  | .union _ => true
  | _ => false

theorem accepts_iff_exists_mem_members {s : Shape} {v : Json} :
    s.Accepts v ↔ ∃ t ∈ s.members, t.Accepts v := by
  cases s with
  | union ms => exact accepts_union_iff
  | _ => simp [members]

theorem flatMap_records_members (s : Shape) : s.members.flatMap records = s.records := by
  cases s with
  | union ms => exact (records_union ms).symm
  | _ => simp [members]

theorem flatMap_recordNames_members (alternatives : List Shape) :
    (alternatives.flatMap members).flatMap recordNames = alternatives.flatMap recordNames := by
  rw [List.flatMap_assoc]
  refine List.flatMap_congr fun s _ => ?_
  cases s with
  | union ms => exact (recordNames_union ms).symm
  | _ => simp [members]

/-! ## The rule as a whole -/

/-- The rule gives any value, a single member, or a union of at least two. -/
theorem unionOf_induct {motive : Shape → Prop} (alternatives : List Shape)
    (none : motive .unknown)
    (one : ∀ s ∈ alternatives.flatMap members, motive s)
    (several : ∀ ms : List Shape, 2 ≤ ms.length → (∀ s ∈ ms, s ∈ alternatives.flatMap members) →
      ms.Pairwise (fun s t => s.same t = false) → motive (.union ms)) :
    motive (unionOf alternatives) := by
  have hmem : ∀ s ∈ distinct (alternatives.flatMap members), s ∈ alternatives.flatMap members :=
    fun s => mem_of_mem_distinct
  have hpair := pairwise_distinct (alternatives.flatMap members)
  unfold unionOf
  generalize distinct (alternatives.flatMap members) = kept at hmem hpair
  match kept with
  | [] => exact none
  | [s] => exact one s (hmem s List.mem_cons_self)
  | s :: t :: rest => exact several (s :: t :: rest) (by simp) hmem hpair

theorem accepts_ofMembers_iff {ms : List Shape} {v : Json} :
    (ofMembers ms).Accepts v ↔ ms = [] ∨ ∃ s ∈ ms, s.Accepts v := by
  match ms with
  | [] => simp [ofMembers, Accepts.unknown]
  | [s] => simp [ofMembers]
  | s :: t :: rest => simp [ofMembers, accepts_union_iff]

/-- **A union accepts what some alternative accepts**; without any member it accepts all values. -/
theorem accepts_unionOf_iff {alternatives : List Shape} {v : Json} :
    (unionOf alternatives).Accepts v ↔
      alternatives.flatMap members = [] ∨ ∃ s ∈ alternatives, s.Accepts v := by
  rw [unionOf, accepts_ofMembers_iff, distinct_eq_nil_iff]
  refine or_congr_right ⟨?_, ?_⟩
  · rintro ⟨t, ht, hacc⟩
    obtain ⟨s, hs, hmem⟩ := List.mem_flatMap.mp (mem_of_mem_distinct ht)
    exact ⟨s, hs, accepts_iff_exists_mem_members.mpr ⟨t, hmem, hacc⟩⟩
  · rintro ⟨s, hs, hacc⟩
    obtain ⟨m, hm, hacc'⟩ := accepts_iff_exists_mem_members.mp hacc
    obtain ⟨t, ht, hsame⟩ := exists_mem_distinct_same (List.mem_flatMap.mpr ⟨s, hs, hm⟩)
    exact ⟨t, ht, (accepts_iff_of_same hsame v).mpr hacc'⟩

theorem records_ofMembers (ms : List Shape) : (ofMembers ms).records = ms.flatMap records := by
  match ms with
  | [] => rfl
  | [s] => simp [ofMembers]
  | s :: t :: rest => exact records_union (s :: t :: rest)

/-- **A union keeps every record of its alternatives, in order**, when no two of them share a
name. -/
theorem records_unionOf {alternatives : List Shape}
    (h : (alternatives.flatMap recordNames).Nodup) :
    (unionOf alternatives).records = alternatives.flatMap records := by
  rw [← flatMap_recordNames_members] at h
  rw [unionOf, records_ofMembers, flatMap_records_distinct h, List.flatMap_assoc]
  exact List.flatMap_congr fun s _ => flatMap_records_members s

/-! ## Normal forms -/

/-- A union of at least two members, none of them a union and no two the same; any other shape as it
is. Only the top of the shape is looked at. -/
def Normal : Shape → Prop
  | .union ms => 2 ≤ ms.length ∧ (∀ s ∈ ms, s.isUnion = false) ∧
      ms.Pairwise (fun s t => s.same t = false)
  | _ => True

theorem normal_of_not_isUnion {s : Shape} (h : s.isUnion = false) : s.Normal := by
  cases s with
  | union members => cases h
  | _ => trivial

theorem Normal.not_isUnion_of_mem {s t : Shape} (h : s.Normal) (ht : t ∈ s.members) :
    t.isUnion = false := by
  cases s with
  | union ms => exact h.2.1 t ht
  | _ =>
    rw [List.mem_singleton.mp ht]
    rfl

theorem Normal.members_ne_nil {s : Shape} (h : s.Normal) : s.members ≠ [] := by
  cases s with
  | union ms =>
    intro hnil
    rw [members_union] at hnil
    have := h.1
    simp [hnil] at this
  | _ => simp [members]

/-- **The rule joins normal forms to a normal form.** -/
theorem normal_unionOf {alternatives : List Shape} (h : ∀ s ∈ alternatives, s.Normal) :
    (unionOf alternatives).Normal := by
  -- One level is flattened, and below it a normal form has no further union.
  have hflat : ∀ t ∈ alternatives.flatMap members, t.isUnion = false := by
    intro t ht
    obtain ⟨s, hs, hmem⟩ := List.mem_flatMap.mp ht
    exact (h s hs).not_isUnion_of_mem hmem
  refine unionOf_induct alternatives trivial (fun s hs => ?_) fun ms hlen hmem hpair => ?_
  · exact normal_of_not_isUnion (hflat s hs)
  · exact ⟨hlen, fun s hs => hflat s (hmem s hs), hpair⟩

/-! ## Null -/

/-- A nullable shape accepts `null` besides what it accepted before. -/
theorem accepts_nullable_iff {s : Shape} {v : Json} :
    s.nullable.Accepts v ↔ v = .null ∨ s.Accepts v := by
  rw [nullable, accepts_unionOf_iff]
  simp [members, accepts_null_iff, or_comm]

theorem records_nullable {s : Shape} (h : s.recordNames.Nodup) : s.nullable.records = s.records := by
  rw [nullable, records_unionOf (by simpa using h)]
  simp [records]

end ToolShape.Shape
