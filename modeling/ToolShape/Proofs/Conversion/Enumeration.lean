import ToolShape.Proofs.Conversion.WellFormed
import ToolShape.Proofs.Schema.Admission
import ToolShape.Proofs.Shape.Grouping

/-!
# Enums as sets

An `enum` lists its values, and what counts is which values are listed: neither their order nor how
often each is there.

> **Enums of the same values resolve to the same shape, and as the alternatives of a node they are
> one** (`Converter.enums_are_sets`).

Values are compared as data (`Json.Same`), and nodes that are compared have the same `type`, which
decides as soon as a value is listed that is neither a string nor `null`. The shapes are the same
rather than equal, since a literal keeps its strings as they come; but for a union that is enough,
and the first of them stands for all (`Shape.unionOf_cons_of_same`).
-/

set_option autoImplicit false

namespace ToolShape

open Json (Fields)
open Name (Context)

/-! ## Values as data -/

/-- Two values are the same as data: an object's keys are in no order, and zero has no sign. -/
inductive Json.Same : Json → Json → Prop where
  | refl (v : Json) : Same v v
  | zero {x y : Double} (hx : x.isZero = true) (hy : y.isZero = true) :
    Same (.num (.float x)) (.num (.float y))
  | arr {vs ws : List Json} (items : List.Forall₂ Same vs ws) : Same (.arr vs) (.arr ws)
  | obj {a b : Fields} (values : ∀ key, Option.Rel Same (a.get? key) (b.get? key)) :
    Same (.obj a) (.obj b)

/-- Two lists hold the same values, each of them at least once. -/
structure Json.SameValues (vs ws : List Json) : Prop where
  left : ∀ v ∈ vs, ∃ w ∈ ws, v.Same w
  right : ∀ w ∈ ws, ∃ v ∈ vs, v.Same w

namespace Json

variable {v w : Json} {vs ws : List Json}

theorem Same.isNull_eq (h : v.Same w) : v.isNull = w.isNull := by
  cases h <;> rfl

theorem Same.asString?_eq (h : v.Same w) : v.asString? = w.asString? := by
  cases h <;> rfl

theorem SameValues.of_mem_iff (h : ∀ v, v ∈ vs ↔ v ∈ ws) : SameValues vs ws where
  left v hv := ⟨v, (h v).mp hv, .refl v⟩
  right w hw := ⟨w, (h w).mpr hw, .refl w⟩

/-- A test that data alone decides has one answer for all values of two such lists. -/
theorem SameValues.all_eq (h : SameValues vs ws) {p : Json → Bool}
    (hp : ∀ {v w : Json}, v.Same w → p v = p w) : vs.all p = ws.all p := by
  rw [Bool.eq_iff_iff, List.all_eq_true, List.all_eq_true]
  constructor
  · intro hall w hw
    obtain ⟨v, hv, hsame⟩ := h.right w hw
    rw [← hp hsame, hall v hv]
  · intro hall v hv
    obtain ⟨w, hw, hsame⟩ := h.left v hv
    rw [hp hsame, hall w hw]

theorem SameValues.eq_nil_iff (h : SameValues vs ws) : vs = [] ↔ ws = [] := by
  constructor
  · rintro rfl
    refine List.eq_nil_iff_forall_not_mem.mpr fun w hw => ?_
    obtain ⟨v, hv, _⟩ := h.right w hw
    cases hv
  · rintro rfl
    refine List.eq_nil_iff_forall_not_mem.mpr fun v hv => ?_
    obtain ⟨w, hw, _⟩ := h.left v hv
    cases hw

/-- The same strings are in both lists. -/
theorem SameValues.str_mem_iff (h : SameValues vs ws) (s : String) :
    .str s ∈ vs ↔ .str s ∈ ws := by
  constructor
  · intro hs
    obtain ⟨w, hw, hsame⟩ := h.left _ hs
    cases hsame
    exact hw
  · intro hs
    obtain ⟨v, hv, hsame⟩ := h.right _ hs
    cases hsame
    exact hv

theorem SameValues.null_mem_iff (h : SameValues vs ws) : Json.null ∈ vs ↔ Json.null ∈ ws := by
  constructor
  · intro hnull
    obtain ⟨w, hw, hsame⟩ := h.left _ hnull
    cases hsame
    exact hw
  · intro hnull
    obtain ⟨v, hv, hsame⟩ := h.right _ hnull
    cases hsame
    exact hv

end Json

/-! ## Shapes of enums -/

namespace Shape

theorem same_literalOf {as bs : List String} (h : ∀ s, s ∈ as ↔ s ∈ bs) :
    (literalOf as).same (literalOf bs) = true := by
  refine same_literal_iff.mpr ⟨bs.eraseDups, rfl, fun s => ?_⟩
  rw [List.mem_eraseDups, List.mem_eraseDups, h s]

theorem nullable_literalOf (values : List String) :
    (literalOf values).nullable = .union [literalOf values, .null] := by
  simp [nullable, unionOf, literalOf, members, distinct, addMember, ofMembers, same]

theorem same_nullable_literalOf {as bs : List String} (h : ∀ s, s ∈ as ↔ s ∈ bs) :
    (literalOf as).nullable.same (literalOf bs).nullable = true := by
  rw [nullable_literalOf, nullable_literalOf, same_union_iff]
  exact ⟨_, rfl, .cons (same_literalOf h) (.cons (same_refl null) .nil)⟩

end Shape

namespace Schema

/-! What the rule says of a list, by what is in it. -/

section Rule

variable {values : List Json} {strings : List String}

theorem enumOf_of_nulls (hne : values ≠ []) (h : values.all Json.isNull = true)
    (type : Option Json) : enumOf values type = .null := by
  have hproper : values.filter (!·.isNull) = [] := by
    simpa [List.filter_eq_nil_iff] using h
  simp [enumOf, hne, hproper]

theorem filter_not_isNull_ne_nil (h : values.all Json.isNull = false) :
    values.filter (!·.isNull) ≠ [] := by
  simpa [List.filter_eq_nil_iff] using h

theorem ne_nil_of_not_all_isNull (h : values.all Json.isNull = false) : values ≠ [] := by
  rintro rfl
  cases h

theorem enumOf_of_strings (h : values.all Json.isNull = false)
    (hstrings : allStrings? (values.filter (!·.isNull)) = some strings) (type : Option Json) :
    enumOf values type =
      if (values.filter (!·.isNull)).length < values.length then
        (Shape.literalOf strings).nullable
      else Shape.literalOf strings := by
  simp [enumOf, ne_nil_of_not_all_isNull h, filter_not_isNull_ne_nil h, hstrings]

theorem enumOf_of_others (h : values.all Json.isNull = false)
    (hstrings : allStrings? (values.filter (!·.isNull)) = none) (type : Option Json) :
    enumOf values type = simple (some (type.getD (.str "string"))) := by
  simp [enumOf, ne_nil_of_not_all_isNull h, filter_not_isNull_ne_nil h, hstrings]

end Rule

/-- Two nodes list the same values, and agree on their `type`. -/
structure SameEnum (a b : Fields) : Prop where
  type_same : Option.Rel Json.Same (a.get? "type") (b.get? "type")
  values_same : ∃ vs ws, a.get? "enum" = some (.arr vs) ∧ b.get? "enum" = some (.arr ws) ∧
    Json.SameValues vs ws

theorem simple_eq_of_same {s t : Option Json} (h : Option.Rel Json.Same s t) (otherwise : Json) :
    simple (some (s.getD otherwise)) = simple (some (t.getD otherwise)) := by
  cases h with
  | none => rfl
  | some hsame =>
    unfold simple
    rw [Option.getD_some, Option.getD_some, Option.bind_some, Option.bind_some, hsame.asString?_eq]

/-- **The same values give the same shape.** The cases are those of the rule; in each of them what is
asked is asked of the values as a set. -/
theorem same_enumOf {vs ws : List Json} (h : Json.SameValues vs ws) {s t : Option Json}
    (htype : Option.Rel Json.Same s t) : (enumOf vs s).same (enumOf ws t) = true := by
  by_cases hnil : vs = []
  · rw [hnil, h.eq_nil_iff.mp hnil]
    exact Shape.same_refl .string
  have hnulls : vs.all Json.isNull = ws.all Json.isNull := h.all_eq Json.Same.isNull_eq
  cases hall : vs.all Json.isNull with
  | true =>
    rw [enumOf_of_nulls hnil hall,
      enumOf_of_nulls (mt h.eq_nil_iff.mpr hnil) (hnulls.symm.trans hall)]
    exact Shape.same_refl .null
  | false =>
    have hall' : ws.all Json.isNull = false := hnulls.symm.trans hall
    have hstrings : (allStrings? (vs.filter (!·.isNull))).isSome =
        (allStrings? (ws.filter (!·.isNull))).isSome := by
      rw [isSome_allStrings?, isSome_allStrings?]
      exact h.all_eq fun hsame => by rw [hsame.isNull_eq, hsame.asString?_eq]
    cases hvs : allStrings? (vs.filter (!·.isNull)) with
    | none =>
      rw [hvs] at hstrings
      have hws : allStrings? (ws.filter (!·.isNull)) = none := by
        simpa using hstrings.symm
      rw [enumOf_of_others hall hvs, enumOf_of_others hall' hws, simple_eq_of_same htype]
      exact Shape.same_refl _
    | some as =>
      rw [hvs] at hstrings
      obtain ⟨bs, hws⟩ := Option.isSome_iff_exists.mp hstrings.symm
      have hmem : ∀ s, s ∈ as ↔ s ∈ bs := by
        intro s
        rw [← str_mem_iff_of_allStrings? hvs, ← str_mem_iff_of_allStrings? hws, h.str_mem_iff]
      rw [enumOf_of_strings hall hvs, enumOf_of_strings hall' hws]
      by_cases hnull : Json.null ∈ vs
      · rw [if_pos (length_filter_lt_iff_null_mem.mpr hnull),
          if_pos (length_filter_lt_iff_null_mem.mpr (h.null_mem_iff.mp hnull))]
        exact Shape.same_nullable_literalOf hmem
      · rw [if_neg (mt length_filter_lt_iff_null_mem.mp hnull),
          if_neg (mt length_filter_lt_iff_null_mem.mp (mt h.null_mem_iff.mpr hnull))]
        exact Shape.same_literalOf hmem

theorem SameEnum.same_enumShape {a b : Fields} (h : SameEnum a b) :
    (enumShape a).same (enumShape b) = true := by
  obtain ⟨vs, ws, hvs, hws, hsame⟩ := h.values_same
  rw [enumShape, enumShape, hvs, hws]
  exact same_enumOf hsame h.type_same

/-! ## Enums among alternatives -/

/-- A node that its `anyOf` decides or, without one, its `oneOf`; and the alternatives there. -/
structure IsChoice (schema : Fields) (nodes : List Json) : Prop where
  not_reference : schema.has "$ref" = false
  not_enum : schema.has "enum" = false
  not_composition : schema.has "allOf" = false
  nodes_eq : (schema.get? "anyOf").or (schema.get? "oneOf") = some (.arr nodes)

theorem IsChoice.form_eq {schema : Fields} {nodes : List Json} (h : IsChoice schema nodes) :
    form (.obj schema) = .alternatives nodes := by
  have hnodes := h.nodes_eq
  cases hany : schema.get? "anyOf" with
  | some v =>
    have hhas : schema.has "anyOf" = true := Fields.has_of_get?_eq_some hany
    have hne : schema.isEmpty = false := Fields.isEmpty_eq_false_of_has hhas
    rw [hany, Option.some_or, Option.some.injEq] at hnodes
    simp [form, hne, h.not_reference, h.not_enum, h.not_composition, hhas, alternativesUnder, hany,
      hnodes, Json.asArray?]
  | none =>
    have hnot : schema.has "anyOf" = false := by rw [Fields.has, hany, Option.isSome_none]
    rw [hany, Option.none_or] at hnodes
    have hhas : schema.has "oneOf" = true := Fields.has_of_get?_eq_some hnodes
    have hne : schema.isEmpty = false := Fields.isEmpty_eq_false_of_has hhas
    simp [form, hne, h.not_reference, h.not_enum, h.not_composition, hnot, hhas, alternativesUnder,
      hnodes, Json.asArray?]

/-- An enum that stands among alternatives for itself, being neither a reference nor pinned to one
value; and it lists the same values as a given one. -/
structure IsEnumLike (first branch : Fields) : Prop where
  same_enum : SameEnum first branch
  not_reference : branch.has "$ref" = false
  not_pinned : branch.has "const" = false

theorem IsEnumLike.form_eq {first branch : Fields} (h : IsEnumLike first branch) :
    form (.obj branch) = .leaf (enumShape branch) := by
  obtain ⟨vs, ws, _, hws, _⟩ := h.same_enum.values_same
  have hhas : branch.has "enum" = true := Fields.has_of_get?_eq_some hws
  have hne : branch.isEmpty = false := Fields.isEmpty_eq_false_of_has hhas
  simp [form, hne, h.not_reference, hhas]

theorem IsEnumLike.not_isPinned {first branch : Fields} (h : IsEnumLike first branch) :
    isPinned (.obj branch) = false := h.not_pinned

end Schema

namespace Shape

/-- Members the same as kept ones add nothing. -/
theorem foldl_addMember_eq_self {kept more : List Shape}
    (h : ∀ t ∈ more, kept.any (·.same t) = true) : more.foldl addMember kept = kept := by
  induction more with
  | nil => rfl
  | cons t rest ih =>
    obtain ⟨ht, hrest⟩ := List.forall_mem_cons.mp h
    rw [List.foldl_cons, addMember, if_pos ht, ih hrest]

theorem isUnion_eq_of_same {s t : Shape} (h : s.same t = true) : s.isUnion = t.isUnion := by
  cases s with
  | unknown => rw [same_unknown_iff.mp h]
  | mapping => rw [same_mapping_iff.mp h]
  | scalar kind => rw [same_scalar_iff.mp h]
  | literal values =>
    obtain ⟨others, rfl, _⟩ := same_literal_iff.mp h
    rfl
  | sequence items =>
    obtain ⟨others, rfl, _⟩ := same_sequence_iff.mp h
    rfl
  | record r =>
    obtain ⟨name, fields⟩ := r
    obtain ⟨others, rfl, _⟩ := same_record_iff.mp h
    rfl
  | union ms =>
    obtain ⟨others, rfl, _⟩ := same_union_iff.mp h
    rfl

theorem members_of_not_isUnion {s : Shape} (h : s.isUnion = false) : s.members = [s] := by
  cases s with
  | union ms => cases h
  | _ => rfl

/-- Shapes that are the same have members that are the same. -/
theorem exists_mem_members_same {s t m : Shape} (h : s.same t = true) (hm : m ∈ t.members) :
    ∃ k ∈ s.members, k.same m = true := by
  cases hs : s.isUnion with
  | false =>
    rw [members_of_not_isUnion ((isUnion_eq_of_same h).symm.trans hs), List.mem_singleton] at hm
    rw [members_of_not_isUnion hs, hm]
    exact ⟨s, List.mem_singleton_self s, h⟩
  | true =>
    cases s with
    | union ms =>
      obtain ⟨others, rfl, hmembers⟩ := same_union_iff.mp h
      have hiff : (∃ k ∈ ms, k.same m = true) ↔ ∃ l ∈ others, l.same m = true :=
        exists_mem_iff_of_forall₂ hmembers fun k _ l hkl => same_iff_of_same hkl m
      exact hiff.mpr ⟨m, hm, same_refl m⟩
    | _ => cases hs

/-- **Alternatives that are the same as the first leave it alone.** Each member that a later one
contributes is the same as a member of the first, and is dropped for it. -/
theorem unionOf_cons_of_same {s : Shape} (hs : s.Normal) {others : List Shape}
    (h : ∀ t ∈ others, s.same t = true) : unionOf (s :: others) = s := by
  have hdrop : ∀ m ∈ others.flatMap members, (distinct s.members).any (·.same m) = true := by
    intro m hm
    obtain ⟨t, ht, hmt⟩ := List.mem_flatMap.mp hm
    obtain ⟨k, hk, hsame⟩ := exists_mem_members_same (h t ht) hmt
    rw [any_same_distinct, List.any_eq_true]
    exact ⟨k, hk, hsame⟩
  calc unionOf (s :: others)
      = ofMembers (distinct (s.members ++ others.flatMap members)) := by
        rw [unionOf, List.flatMap_cons]
    _ = ofMembers (distinct s.members) := by
        rw [distinct_append, foldl_addMember_eq_self hdrop]
    _ = unionOf [s] := by rw [unionOf, List.flatMap_singleton]
    _ = s := unionOf_singleton hs

end Shape

namespace Converter

/-- Alternatives that are enums are known at once. -/
theorem resolveAlternatives_enums (converter : Converter) {first : Fields} {branches : List Fields}
    (h : ∀ branch ∈ branches, Schema.IsEnumLike first branch) (levels : Nat) (context : Context)
    (position : Nat) :
    resolveAlternatives (converter.resolveWithin (levels + 1)) context (branches.map Json.obj)
      position = ⟨branches.map Schema.enumShape, 0, []⟩ := by
  induction branches generalizing position with
  | nil => rfl
  | cons branch rest ih =>
    obtain ⟨hbranch, hrest⟩ := List.forall_mem_cons.mp h
    rw [List.map_cons, resolveAlternatives_cons,
      resolveAlternative_of_not_isPinned hbranch.not_isPinned, resolveWithin_leaf hbranch.form_eq]
    dsimp only
    rw [ih hrest]
    rfl

/-- **Enums are sets.** Two nodes that list the same values in their `enum`, and have the same `type`
or none, have the same shape, whatever the order of the values and however often each is listed. As
the alternatives of a node they resolve to the very shape of the first, without a draw or an
event. -/
theorem enums_are_sets :
    (∀ a b, Schema.SameEnum a b → (Schema.enumShape a).same (Schema.enumShape b) = true) ∧
    ∀ (converter : Converter) (schema first : Fields) (others : List Fields),
      Schema.IsChoice schema ((first :: others).map .obj) →
      (∀ branch ∈ first :: others, Schema.IsEnumLike first branch) →
      ∀ levels context position,
        converter.resolveWithin (levels + 1) (.obj first) context position =
          ⟨Schema.enumShape first, 0, []⟩ ∧
        converter.resolveWithin (levels + 2) (.obj schema) context position =
          converter.resolveWithin (levels + 1) (.obj first) context position := by
  refine ⟨fun a b h => h.same_enumShape, ?_⟩
  intro converter schema first others hchoice henums levels context position
  have hfirst : converter.resolveWithin (levels + 1) (.obj first) context position =
      ⟨Schema.enumShape first, 0, []⟩ :=
    resolveWithin_leaf (henums first List.mem_cons_self).form_eq converter levels context position
  have hnormal : (Schema.enumShape first).Normal :=
    (Schema.plain_enumShape first).formed.1.normal
  have hsame : ∀ s ∈ others.map Schema.enumShape, (Schema.enumShape first).same s = true := by
    intro s hs
    obtain ⟨branch, hbranch, rfl⟩ := List.mem_map.mp hs
    exact (henums branch (List.mem_cons_of_mem first hbranch)).same_enum.same_enumShape
  refine ⟨hfirst, ?_⟩
  rw [resolveWithin_alternatives hchoice.form_eq, resolveAlternatives_enums converter henums, hfirst]
  dsimp only
  rw [List.map_cons, Shape.unionOf_cons_of_same hnormal hsame]

/-- Values in another order, one of them twice, and `null` in the middle: the strings stay as the
first alternative has them, at the least limit at which alternatives are looked at. -/
theorem enums_are_sets_for_reordered_nullable :
    let first : Fields := [("enum", .arr [.str "asc", .null, .str "desc"])]
    let other : Fields := [("description", .str "either way"),
      ("enum", .arr [.str "desc", .str "asc", .null, .str "desc"])]
    let schema : Fields := [("oneOf", .arr [.obj first, .obj other])]
    let order : Shape := .union [.literal ["asc", "desc"], .null]
    let converter : Converter := ⟨.counting 0, 2⟩
    Schema.SameEnum first other ∧ Schema.IsChoice schema [.obj first, .obj other] ∧
      (Schema.enumShape first).same (Schema.enumShape other) = true ∧
      converter.resolve (.obj schema) ⟨"Order"⟩ 0 = ⟨order, 0, []⟩ := by
  intro first other schema order converter
  have hvalues : Json.SameValues [.str "asc", .null, .str "desc"]
      [.str "desc", .str "asc", .null, .str "desc"] := by
    refine .of_mem_iff fun v => ?_
    simp only [List.mem_cons, List.not_mem_nil]
    tauto
  have hsame : Schema.SameEnum first other := ⟨.none, _, _, rfl, rfl, hvalues⟩
  have hchoice : Schema.IsChoice schema [.obj first, .obj other] := ⟨rfl, rfl, rfl, rfl⟩
  have henums : ∀ branch ∈ [first, other], Schema.IsEnumLike first branch := by
    intro branch hbranch
    rcases List.mem_pair.mp hbranch with rfl | rfl
    · exact ⟨⟨.none, _, _, rfl, rfl, .of_mem_iff fun _ => Iff.rfl⟩, rfl, rfl⟩
    · exact ⟨hsame, rfl, rfl⟩
  obtain ⟨hshapes, hresolve⟩ := enums_are_sets
  obtain ⟨hfirst, hall⟩ := hresolve converter schema first [other] hchoice henums 0 ⟨"Order"⟩ 0
  refine ⟨hsame, hchoice, hshapes first other hsame, hall.trans (hfirst.trans ?_)⟩
  have hshape : Schema.enumShape first = (Shape.literalOf ["asc", "desc"]).nullable := rfl
  rw [hshape, Shape.nullable_literalOf]
  rfl

end Converter

end ToolShape
