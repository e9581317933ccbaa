import ToolShape.Proofs.Shape.Union

/-!
# Alternatives in groups

Alternatives may be joined all at once, or in groups whose unions are joined in turn, as a schema
does that nests one `anyOf` in another. Two things hold whatever the groups are.

* **The same values are accepted** (`Shape.accepted_by_unionOf`), for any shapes: the order of the
  alternatives, how often each stands there and how they are grouped do not count.
* **The very same shape comes out** (`Shape.unionOf_regrouped`), when the alternatives are in normal
  form: members, their order, and which of several that are the same stands for the others.

The second rests on one law of the rule's inner loop: adding the distinct members of a list adds
what the list itself would add (`Shape.foldl_addMember_distinct`). It needs sameness to be
transitive, since a member may be dropped for one that is dropped in turn.
-/

set_option autoImplicit false

namespace ToolShape.Shape

/-! ## First occurrences -/

/-- The shapes of a list that no shape before them is the same as, in order. -/
def firsts (all : List Shape) : List Shape :=
  (all.zipIdx.filter fun p => !(all.take p.2).any (·.same p.1)).map Prod.fst

/-- Dropping members leaves the same ones to compare with. -/
theorem any_same_distinct (all : List Shape) (s : Shape) :
    (distinct all).any (·.same s) = all.any (·.same s) := by
  rw [Bool.eq_iff_iff, List.any_eq_true, List.any_eq_true]
  constructor
  · rintro ⟨t, ht, hsame⟩
    exact ⟨t, mem_of_mem_distinct ht, hsame⟩
  · rintro ⟨t, ht, hsame⟩
    obtain ⟨kept, hkept, hsame'⟩ := exists_mem_distinct_same ht
    exact ⟨kept, hkept, same_trans hsame' hsame⟩

theorem firsts_append_singleton (all : List Shape) (s : Shape) :
    firsts (all ++ [s]) = if all.any (·.same s) then firsts all else firsts all ++ [s] := by
  -- What stands before a member of `all` is the same in the longer list.
  have hbefore : (all.zipIdx.filter fun p => !((all ++ [s]).take p.2).any (·.same p.1)) =
      all.zipIdx.filter fun p => !(all.take p.2).any (·.same p.1) := by
    refine List.filter_congr fun p hp => ?_
    have hlt : p.2 < all.length := by simpa using List.snd_lt_add_of_mem_zipIdx hp
    rw [List.take_append_of_le_length (Nat.le_of_lt hlt)]
  rw [firsts, List.zipIdx_append, List.filter_append, hbefore, List.map_append, firsts]
  cases hany : all.any (·.same s) <;> simp [hany]

/-- **The distinct members are the first occurrences.** -/
theorem distinct_eq_firsts (all : List Shape) : distinct all = firsts all := by
  induction all using List.reverseRecOn with
  | nil => rfl
  | append_singleton all s ih =>
    rw [distinct_append_singleton, firsts_append_singleton, addMember, any_same_distinct, ih]

/-! ## Adding members that are distinct already -/

/-- **Adding the distinct members of a list adds what the list adds.** By induction on the list from
its end: a last member that is dropped from the list is dropped by what the rest of it has added. -/
theorem foldl_addMember_distinct (kept all : List Shape) :
    (distinct all).foldl addMember kept = all.foldl addMember kept := by
  induction all using List.reverseRecOn with
  | nil => rfl
  | append_singleton all s ih =>
    rw [distinct_append_singleton, addMember, List.foldl_concat]
    split
    · next hany =>
      obtain ⟨t, ht, hsame⟩ := List.any_eq_true.mp hany
      obtain ⟨u, hu, hsame'⟩ := exists_mem_foldl_addMember_same kept (mem_of_mem_distinct ht)
      have hdrop : (all.foldl addMember kept).any (·.same s) = true :=
        List.any_eq_true.mpr ⟨u, hu, same_trans hsame' hsame⟩
      rw [ih, addMember, if_pos hdrop]
    · rw [List.foldl_concat, ih]

/-- Lists may be made distinct one by one before they are made distinct together. -/
theorem distinct_flatMap_distinct (lists : List (List Shape)) :
    distinct (lists.flatMap distinct) = distinct lists.flatten := by
  suffices h : ∀ kept, (lists.flatMap distinct).foldl addMember kept =
      lists.flatten.foldl addMember kept from h []
  induction lists with
  | nil => exact fun _ => rfl
  | cons first rest ih =>
    intro kept
    rw [List.flatMap_cons, List.flatten_cons, List.foldl_append, List.foldl_append,
      foldl_addMember_distinct, ih]

theorem distinct_eq_self {all : List Shape} (h : all.Pairwise fun s t => s.same t = false) :
    distinct all = all := by
  induction all using List.reverseRecOn with
  | nil => rfl
  | append_singleton all s ih =>
    obtain ⟨hall, _, hnew⟩ := List.pairwise_append.mp h
    have hnone : ¬ all.any (·.same s) = true := by
      intro hany
      obtain ⟨t, ht, hsame⟩ := List.any_eq_true.mp hany
      rw [hnew t ht s List.mem_cons_self] at hsame
      cases hsame
    rw [distinct_append_singleton, ih hall, addMember, if_neg hnone]

/-! ## Normal forms -/

/-- Members that are no unions are the members of the shape made of them, if there are any. -/
theorem members_ofMembers {ms : List Shape} (hne : ms ≠ [])
    (h : ∀ s ∈ ms, s.isUnion = false) : (ofMembers ms).members = ms := by
  match ms with
  | [] => exact absurd rfl hne
  | [s] =>
    have hs : s.isUnion = false := h s List.mem_cons_self
    cases s with
    | union _ => cases hs
    | _ => rfl
  | s :: t :: rest => rfl

theorem flatMap_members_ne_nil {alternatives : List Shape} (hne : alternatives ≠ [])
    (h : ∀ s ∈ alternatives, s.Normal) : alternatives.flatMap members ≠ [] := by
  obtain ⟨s, hs⟩ := List.exists_mem_of_ne_nil _ hne
  intro hnil
  exact (h s hs).members_ne_nil (List.flatMap_eq_nil_iff.mp hnil s hs)

/-- The members of a union are the first occurrences among those of its alternatives. -/
theorem members_unionOf {alternatives : List Shape} (hne : alternatives ≠ [])
    (h : ∀ s ∈ alternatives, s.Normal) :
    (unionOf alternatives).members = distinct (alternatives.flatMap members) := by
  refine members_ofMembers (distinct_eq_nil_iff.not.mpr (flatMap_members_ne_nil hne h)) ?_
  intro t ht
  obtain ⟨s, hs, hmem⟩ := List.mem_flatMap.mp (mem_of_mem_distinct ht)
  exact (h s hs).not_isUnion_of_mem hmem

/-- An alternative in normal form stands alone as it is. -/
theorem unionOf_singleton {s : Shape} (h : s.Normal) : unionOf [s] = s := by
  rw [unionOf, List.flatMap_singleton]
  cases s with
  | union ms =>
    obtain ⟨hlen, _, hpair⟩ := h
    rw [members_union, distinct_eq_self hpair]
    rcases ms with _ | ⟨s, _ | ⟨t, rest⟩⟩
    · simp at hlen
    · simp at hlen
    · rfl
  | _ => rfl

/-- **Alternatives in normal form may be joined in groups.** -/
theorem unionOf_map_unionOf {groups : List (List Shape)} (hne : ∀ group ∈ groups, group ≠ [])
    (h : ∀ group ∈ groups, ∀ s ∈ group, s.Normal) :
    unionOf (groups.map unionOf) = unionOf groups.flatten := by
  have hmembers : (groups.map unionOf).flatMap members =
      (groups.map (·.flatMap members)).flatMap distinct := by
    rw [List.flatMap_map, List.flatMap_map]
    exact List.flatMap_congr fun group hgroup => members_unionOf (hne group hgroup) (h group hgroup)
  rw [unionOf, unionOf, hmembers, distinct_flatMap_distinct, ← List.flatMap_def, ← List.flatMap_id,
    List.flatMap_assoc]
  rfl

/-- Some of the alternatives may be joined before the others. -/
theorem unionOf_append_unionOf (before after : List Shape) {group : List Shape} (hne : group ≠ [])
    (h : ∀ s ∈ group, s.Normal) :
    unionOf (before ++ unionOf group :: after) = unionOf (before ++ group ++ after) := by
  have hmembers : (before ++ unionOf group :: after).flatMap members =
      before.flatMap members ++ distinct (group.flatMap members) ++ after.flatMap members := by
    rw [List.flatMap_append, List.flatMap_cons, members_unionOf hne h, List.append_assoc]
  rw [unionOf, hmembers, distinct_append, distinct_append, foldl_addMember_distinct,
    ← distinct_append, ← distinct_append, unionOf, List.flatMap_append, List.flatMap_append]

/-! ## Both results -/

/-- **What a union accepts is what some alternative accepts**, if there is a member at all. So
neither the order of alternatives counts, nor how often each stands there, nor how they are grouped,
as long as each union that is made has a member. -/
theorem accepted_by_unionOf {alternatives : List Shape}
    (hne : alternatives.flatMap members ≠ []) (v : Json) :
    ((unionOf alternatives).issues v = [] ↔ ∃ s ∈ alternatives, s.issues v = []) ∧
    (∀ others : List Shape, (∀ s, s ∈ others ↔ s ∈ alternatives) →
      ((unionOf others).issues v = [] ↔ (unionOf alternatives).issues v = [])) ∧
    ∀ groups : List (List Shape), (∀ s, s ∈ groups.flatten ↔ s ∈ alternatives) →
      (∀ group ∈ groups, group.flatMap members ≠ []) →
      (groups.map unionOf).flatMap members ≠ [] →
      ((unionOf (groups.map unionOf)).issues v = [] ↔ (unionOf alternatives).issues v = []) := by
  have hunion : ∀ list : List Shape, list.flatMap members ≠ [] →
      ((unionOf list).issues v = [] ↔ ∃ s ∈ list, s.issues v = []) := by
    intro list hlist
    simp only [issues_eq_nil_iff, accepts_unionOf_iff, hlist, false_or]
  refine ⟨hunion alternatives hne, fun others hothers => ?_, fun groups hgroups hall hsome => ?_⟩
  · have hne' : others.flatMap members ≠ [] := by
      obtain ⟨m, hm⟩ := List.exists_mem_of_ne_nil _ hne
      obtain ⟨s, hs, hmem⟩ := List.mem_flatMap.mp hm
      exact List.ne_nil_of_mem (List.mem_flatMap.mpr ⟨s, (hothers s).mpr hs, hmem⟩)
    rw [hunion others hne', hunion alternatives hne]
    simp only [hothers]
  · rw [hunion _ hsome, hunion alternatives hne]
    simp only [List.mem_map, exists_exists_and_eq_and, ← hgroups, List.mem_flatten]
    -- Each group accepts what one of its own alternatives accepts.
    constructor
    · rintro ⟨group, hgroup, hacc⟩
      obtain ⟨s, hs, hacc'⟩ := (hunion group (hall group hgroup)).mp hacc
      exact ⟨s, ⟨group, hgroup, hs⟩, hacc'⟩
    · rintro ⟨s, ⟨group, hgroup, hs⟩, hacc⟩
      exact ⟨group, hgroup, (hunion group (hall group hgroup)).mpr ⟨s, hs, hacc⟩⟩

/-- A list named twice in another order, a union, and alternatives joined in two groups. -/
theorem accepted_by_unionOf_for_reordered_literals :
    let choice : Shape := .union [.literal ["a", "b"], .null]
    let alternatives : List Shape := [choice, .literal ["b", "a"], .mapping]
    alternatives.flatMap members ≠ [] ∧
      ((unionOf alternatives).issues (.str "b") = [] ↔
        ∃ s ∈ alternatives, s.issues (.str "b") = []) ∧
      ((unionOf [.mapping, choice, .mapping, .literal ["b", "a"]]).issues (.str "b") = [] ↔
        (unionOf alternatives).issues (.str "b") = []) ∧
      ((unionOf [unionOf [.mapping], unionOf [.literal ["b", "a"], choice]]).issues
          (.str "b") = [] ↔ (unionOf alternatives).issues (.str "b") = []) := by
  intro choice alternatives
  have hne : alternatives.flatMap members ≠ [] := List.cons_ne_nil _ _
  obtain ⟨hsome, hreordered, hgrouped⟩ := accepted_by_unionOf hne (.str "b")
  refine ⟨hne, hsome, hreordered _ fun s => ?_, hgrouped [[.mapping], [.literal ["b", "a"], choice]]
    (fun s => ?_) (fun group hgroup => ?_) (List.cons_ne_nil _ _)⟩
  · simp only [alternatives, List.mem_cons, List.not_mem_nil]
    tauto
  · simp only [alternatives, List.flatten_cons, List.flatten_nil, List.mem_append, List.mem_cons,
      List.not_mem_nil]
    tauto
  · rcases List.mem_pair.mp hgroup with rfl | rfl <;> exact List.cons_ne_nil _ _

/-- **Alternatives in normal form give a normal form, in whatever groups they are joined.** Its
members are the first occurrences among theirs, in order; without alternatives it is any value. The
groups cut the list into consecutive parts, and some alternatives may as well be joined before the
others. -/
theorem unionOf_regrouped {alternatives : List Shape} (h : ∀ s ∈ alternatives, s.Normal) :
    (unionOf alternatives).Normal ∧
    unionOf alternatives = ofMembers (firsts (alternatives.flatMap members)) ∧
    (alternatives ≠ [] → (unionOf alternatives).members = firsts (alternatives.flatMap members)) ∧
    (∀ s ∈ alternatives, unionOf [s] = s) ∧
    (∀ groups : List (List Shape), groups.flatten = alternatives → (∀ group ∈ groups, group ≠ []) →
      unionOf (groups.map unionOf) = unionOf alternatives) ∧
    ∀ before group after : List Shape, before ++ group ++ after = alternatives → group ≠ [] →
      unionOf (before ++ unionOf group :: after) = unionOf alternatives := by
  refine ⟨normal_unionOf h, ?_, fun hne => ?_, fun s hs => unionOf_singleton (h s hs),
    fun groups hgroups hne => ?_, fun before group after hparts hne => ?_⟩
  · rw [unionOf, distinct_eq_firsts]
  · rw [members_unionOf hne h, distinct_eq_firsts]
  · subst hgroups
    exact unionOf_map_unionOf hne fun group hgroup s hs =>
      h s (List.mem_flatten.mpr ⟨group, hgroup, hs⟩)
  · subst hparts
    exact unionOf_append_unionOf before after hne fun s hs => h s (by simp [hs])

/-- The first of two lists that are the same stands for both, in groups as well. -/
theorem unionOf_regrouped_for_reordered_literals :
    let choice : Shape := .union [.literal ["a", "b"], .null]
    let alternatives : List Shape := [.scalar .integer, choice, .literal ["b", "a"]]
    (∀ s ∈ alternatives, s.Normal) ∧
      (unionOf alternatives).members = [.scalar .integer, .literal ["a", "b"], .null] ∧
      unionOf [unionOf [.scalar .integer], unionOf [choice, .literal ["b", "a"]]] =
        unionOf alternatives := by
  intro choice alternatives
  have hchoice : choice.Normal := ⟨by decide, by decide, by simp [same]⟩
  have hnormal : ∀ s ∈ alternatives, s.Normal := by
    simpa [alternatives, hchoice] using ⟨trivial, trivial⟩
  obtain ⟨_, _, hmembers, _, hgroups, _⟩ := unionOf_regrouped hnormal
  refine ⟨hnormal, ?_, ?_⟩
  · rw [hmembers (List.cons_ne_nil _ _)]
    simp [alternatives, choice, firsts, members, same, sameStrings]
  · exact hgroups [[.scalar .integer], [choice, .literal ["b", "a"]]] rfl fun group hgroup => by
      rcases List.mem_pair.mp hgroup with rfl | rfl <;> exact List.cons_ne_nil _ _

end ToolShape.Shape
