import ToolShape.Proofs.Check.Places
import ToolShape.Proofs.Shape.Grouping

/-!
# Adding `null` and taking it away

`Shape.nullable` adds `null` to what a shape allows, `Shape.withoutNull` takes the member `null` out
of a union, and `Shape.acceptsNull` says whether `null` is allowed. The three are defined apart from
each other and from the check, and fit together.

For a normal form, to be nullable is to have `null` for a last member unless it is a member already
(`nullable_eq_self`, `nullable_eq_union`). Everything else follows from that equation:

> **Of a value other than `null`, a nullable shape reports issues at the places where the shape
> itself does** (`places_nullable`).

It has to be about places, since a union that speaks for itself names all its members. Without a
normal form `withoutNull` may change the verdict: a union of `null` alone is left without members,
and then any value is allowed.
-/

set_option autoImplicit false

namespace ToolShape.Shape

variable {s : Shape} {v : Json}

/-! ## Members of a nullable shape -/

theorem nullable_eq_ofMembers (s : Shape) :
    s.nullable = ofMembers (distinct (s.members ++ [null])) := by
  rw [nullable, unionOf, List.flatMap_cons, List.flatMap_singleton]
  rfl

theorem distinct_append_null_of_mem {ms : List Shape} (h : null ∈ ms) :
    distinct (ms ++ [null]) = distinct ms := by
  have hany : (distinct ms).any (·.same null) = true := by
    rw [any_same_distinct]
    exact List.any_eq_true.mpr ⟨null, h, same_refl null⟩
  rw [distinct_append_singleton, addMember, if_pos hany]

theorem distinct_append_null_of_not_mem {ms : List Shape} (h : null ∉ ms) :
    distinct (ms ++ [null]) = distinct ms ++ [null] := by
  have hany : ¬ (distinct ms).any (·.same null) = true := by
    rw [any_same_distinct, List.any_eq_true]
    rintro ⟨t, ht, hsame⟩
    exact h (same_null_iff.mp hsame ▸ ht)
  rw [distinct_append_singleton, addMember, if_neg hany]

theorem null_mem_distinct {ms : List Shape} (h : null ∈ ms) : null ∈ distinct ms := by
  obtain ⟨t, ht, hsame⟩ := exists_mem_distinct_same h
  rwa [← same_null_iff.mp hsame]

/-- With `null` among them, members are not changed by standing together, be they unions or not. -/
theorem members_ofMembers_of_null_mem {ms : List Shape} (h : null ∈ ms) :
    (ofMembers ms).members = ms := by
  match ms with
  | [] => cases h
  | [s] =>
    rw [← List.mem_singleton.mp h]
    rfl
  | s :: t :: rest => rfl

/-- **A shape is made nullable once.** -/
theorem nullable_nullable (s : Shape) : s.nullable.nullable = s.nullable := by
  have hmem : null ∈ s.members ++ [null] := List.mem_append_right _ List.mem_cons_self
  rw [nullable_eq_ofMembers s, nullable_eq_ofMembers,
    members_ofMembers_of_null_mem (null_mem_distinct hmem),
    distinct_append_null_of_mem (null_mem_distinct hmem), distinct_eq_self (pairwise_distinct _)]

/-! ## Normal forms -/

theorem Normal.pairwise_members (h : s.Normal) :
    s.members.Pairwise fun t u => t.same u = false := by
  cases s with
  | union ms => exact h.2.2
  | _ => exact List.pairwise_singleton _ _

theorem ofMembers_members (h : s.Normal) : ofMembers s.members = s := by
  have hself := unionOf_singleton h
  rwa [unionOf, List.flatMap_singleton, distinct_eq_self h.pairwise_members] at hself

/-- A normal form with `null` among its members is nullable already. -/
theorem nullable_eq_self (h : s.Normal) (hnull : null ∈ s.members) : s.nullable = s := by
  rw [nullable_eq_ofMembers, distinct_append_null_of_mem hnull,
    distinct_eq_self h.pairwise_members, ofMembers_members h]

/-- Any other normal form gets `null` for its last member. -/
theorem nullable_eq_union (h : s.Normal) (hnull : null ∉ s.members) :
    s.nullable = .union (s.members ++ [null]) := by
  rw [nullable_eq_ofMembers, distinct_append_null_of_not_mem hnull,
    distinct_eq_self h.pairwise_members]
  obtain ⟨t, rest, hmembers⟩ := List.exists_cons_of_ne_nil h.members_ne_nil
  rw [hmembers]
  cases rest <;> rfl

theorem Normal.exists_mem_ne_null (h : s.Normal) (hs : s ≠ .null) : ∃ t ∈ s.members, t ≠ .null := by
  cases s with
  | union ms =>
    obtain ⟨hlen, _, hpair⟩ := h
    match ms with
    | t :: u :: rest =>
      by_cases ht : t = .null
      · refine ⟨u, List.mem_cons_of_mem _ List.mem_cons_self, fun hu => ?_⟩
        -- Two members that are both `null` would be the same.
        have hdistinct := (List.pairwise_cons.mp hpair).1 u List.mem_cons_self
        rw [ht, hu, same_refl] at hdistinct
        cases hdistinct
      · exact ⟨t, List.mem_cons_self, ht⟩
    | [_] | [] => simp at hlen
  | _ => exact ⟨_, List.mem_cons_self, hs⟩

/-! ## Without `null` -/

theorem filter_singleton (hs : s ≠ .null) : [s].filter (!·.isNull) = [s] :=
  List.filter_cons_of_pos (not_isNull_iff.mpr hs)

theorem filter_append_null (ms : List Shape) :
    (ms ++ [null]).filter (!·.isNull) = ms.filter (!·.isNull) := by
  rw [List.filter_append, List.filter_cons_of_neg (by simp [isNull]), List.filter_nil,
    List.append_nil]

/-- Apart from `null` itself, a normal form without `null` joins its other members. -/
theorem withoutNull_eq_unionOf (h : s.Normal) (hs : s ≠ .null) :
    s.withoutNull = unionOf (s.members.filter (!·.isNull)) := by
  cases s with
  | union ms => rfl
  | _ => exact (unionOf_singleton h).symm.trans (congrArg unionOf (filter_singleton hs).symm)

/-- **What was added is taken away again.** -/
theorem withoutNull_nullable (h : s.Normal) : s.nullable.withoutNull = s.withoutNull := by
  by_cases hnull : null ∈ s.members
  · rw [nullable_eq_self h hnull]
  · have hs : s ≠ .null := by
      rintro rfl
      exact hnull List.mem_cons_self
    rw [nullable_eq_union h hnull, withoutNull_eq_unionOf h hs, withoutNull, filter_append_null]

/-- Without `null`, a normal form accepts what it accepted besides `null`. -/
theorem accepts_withoutNull_iff (h : s.Normal) (hv : v ≠ .null) :
    s.withoutNull.Accepts v ↔ s.Accepts v := by
  by_cases hs : s = .null
  · rw [hs]
    rfl
  · have hothers : (s.members.filter (!·.isNull)).flatMap members ≠ [] := by
      obtain ⟨t, ht, hne⟩ := h.exists_mem_ne_null hs
      have hmem : t ∈ s.members.filter (!·.isNull) :=
        List.mem_filter.mpr ⟨ht, not_isNull_iff.mpr hne⟩
      refine flatMap_members_ne_nil (List.ne_nil_of_mem hmem) fun u hu => ?_
      exact normal_of_not_isUnion (h.not_isUnion_of_mem (List.mem_of_mem_filter hu))
    rw [withoutNull_eq_unionOf h hs, accepts_unionOf_iff, or_iff_right hothers,
      accepts_iff_exists_mem_members]
    constructor
    · rintro ⟨t, ht, hacc⟩
      exact ⟨t, List.mem_of_mem_filter ht, hacc⟩
    · rintro ⟨t, ht, hacc⟩
      have hne : t ≠ .null := fun hnull => hv (accepts_null_iff.mp (hnull ▸ hacc))
      exact ⟨t, List.mem_filter.mpr ⟨ht, not_isNull_iff.mpr hne⟩, hacc⟩

/-! ## Where a nullable shape finds issues -/

/-- A last member `null` moves no issue of a value other than `null`. -/
theorem places_union_append_null (ms : List Shape) (hv : v ≠ .null) :
    (union (ms ++ [null])).places v = (union ms).places v := by
  have hany : anyAccepts (ms ++ [null]) v [] = anyAccepts ms v [] := by
    have hnull : ¬ null.issues v = [] := fun h => hv (accepts_null_iff.mp (issues_eq_nil_iff.mp h))
    rw [Bool.eq_iff_iff, anyAccepts_iff, anyAccepts_iff]
    simp only [List.mem_append, List.mem_singleton, or_and_right, exists_or, exists_eq_left, hnull,
      or_false]
  rw [places, places, issues_union, issues_union, hany, filter_append_null]
  split
  · rfl
  · split <;> rfl

/-- A single member besides `null` reports for the union. -/
theorem places_union_singleton (hs : s ≠ .null) : (union [s]).places v = s.places v := by
  rw [places, issues_union, filter_singleton hs, places]
  split
  · next hany =>
    obtain ⟨t, ht, hissues⟩ := anyAccepts_iff.mp hany
    rw [← List.mem_singleton.mp ht, hissues]
  · rfl

/-- **Of a value other than `null`, a nullable shape reports where the shape itself does.** -/
theorem places_nullable (h : s.Normal) (hv : v ≠ .null) : s.nullable.places v = s.places v := by
  by_cases hnull : null ∈ s.members
  · rw [nullable_eq_self h hnull]
  · rw [nullable_eq_union h hnull, places_union_append_null _ hv]
    cases s with
    | union ms => rfl
    | _ => exact places_union_singleton fun hs => hnull (hs ▸ List.mem_cons_self)

/-! ## The laws together -/

/-- **The three notions of `null` agree with each other and with the check.** Whether `null` is
accepted can be asked either way; a shape is made nullable once, and accepts `null` then. In normal
form, `null` is taken away whether it was added before or not, and neither step changes the verdict
on another value. -/
theorem null_agrees_with_check (s : Shape) :
    (s.acceptsNull = true ↔ s.issues .null = []) ∧
    s.nullable.nullable = s.nullable ∧
    s.nullable.issues .null = [] ∧
    (s.Normal →
      s.nullable.withoutNull = s.withoutNull ∧
      ∀ v, v ≠ .null →
        (s.nullable.issues v = [] ↔ s.issues v = []) ∧
        (s.withoutNull.issues v = [] ↔ s.issues v = [])) := by
  refine ⟨acceptsNull_iff.trans issues_eq_nil_iff.symm, nullable_nullable s, ?_, fun h => ?_⟩
  · exact issues_eq_nil_iff.mpr (accepts_nullable_iff.mpr (Or.inl rfl))
  · refine ⟨withoutNull_nullable h, fun v hv => ⟨?_, ?_⟩⟩
    · exact issues_eq_nil_iff_of_places_eq (places_nullable h hv)
    · rw [issues_eq_nil_iff, issues_eq_nil_iff, accepts_withoutNull_iff h hv]

/-- A union that holds `null` besides one other member, which is left alone without it. -/
theorem null_agrees_with_check_for_nullable_order :
    let order : Shape := .literal ["asc", "desc"]
    let s : Shape := .union [.null, order]
    let v : Json := .str "down"
    s.Normal ∧ v ≠ .null ∧ s.withoutNull = order ∧
      s.issues .null = [] ∧ s.acceptsNull = true ∧ s.nullable.nullable = s.nullable ∧
      s.nullable.withoutNull = s.withoutNull ∧
      (s.nullable.issues v = [] ↔ s.issues v = []) ∧
      (s.withoutNull.issues v = [] ↔ s.issues v = []) := by
  intro order s v
  have hs : s.Normal := ⟨by decide, by decide, by simp [order, same]⟩
  have hv : v ≠ .null := by simp [v]
  obtain ⟨hflag, htwice, _, hnormal⟩ := null_agrees_with_check s
  obtain ⟨hwithout, hissues⟩ := hnormal hs
  exact ⟨hs, hv, rfl, hflag.mp rfl, rfl, htwice, hwithout, hissues v hv⟩

end ToolShape.Shape
