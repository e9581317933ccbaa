import ToolShape.Proofs.Schema.Properties
import ToolShape.Schema.Description
import ToolShape.Schema.Form
import Mathlib.Data.List.Forall2
import Mathlib.Logic.Relation

/-!
# Keywords in another order

What a node means is looked up in it by keyword. So it does not matter in which order the keywords
stand, neither in the node nor in the nodes that it is made of. `Schema.Reorder` orders the keywords
of one node anew, at whatever depth this node stands. Entries of `properties` stay in their order,
which is the order of the fields, and nothing changes inside of data.

One reordering is followed down by one level. Two nodes that are equal or one reordering apart
(`Schema.Alike`) agree on every keyword that holds data, and under the others they hold nodes that
are alike again. Hence

> **alike nodes have alike forms** (`Schema.alike_form`)

and the same description. A branch of an `allOf` is opened twice, for itself and for its variants;
both are nodes, and merging passes over their properties in the order of the entries alone.
-/

set_option autoImplicit false

namespace ToolShape.Schema

open Json (Fields)
open Relation (ReflGen)

/-! ## Reordering -/

/-- The keywords whose values are lists of nodes. -/
def combinators : List String := ["allOf", "anyOf", "oneOf"]

mutual

/-- The keywords of one node are ordered anew, in a schema that is given as a node. -/
inductive Reorder : Json → Json → Prop where
  /-- The node at the top. Its keywords are pairwise different. -/
  | keywords {node other : Fields} (perm : node.Perm other) (nodup : node.keys.Nodup) :
    Reorder (.obj node) (.obj other)
  /-- A node further down, in the value of a keyword. -/
  | under (before after : Fields) {keyword : String} {v w : Json}
    (inner : ReorderUnder keyword v w) :
    Reorder (.obj (before ++ (keyword, v) :: after)) (.obj (before ++ (keyword, w) :: after))

/-- The keywords of one node are ordered anew, in the value of a keyword that holds nodes. -/
inductive ReorderUnder : String → Json → Json → Prop where
  | items {v w : Json} (inner : Reorder v w) : ReorderUnder "items" v w
  | property (before after : Fields) (name : String) {v w : Json} (inner : Reorder v w) :
    ReorderUnder "properties" (.obj (before ++ (name, v) :: after))
      (.obj (before ++ (name, w) :: after))
  | branch {keyword : String} (combines : keyword ∈ combinators) (before after : List Json)
    {v w : Json} (inner : Reorder v w) :
    ReorderUnder keyword (.arr (before ++ v :: after)) (.arr (before ++ w :: after))

end

/-- A schema is got from another by ordering keywords anew, any number of times. -/
abbrev Reordered : Json → Json → Prop := Relation.ReflTransGen Reorder

/-- Two nodes are equal or one reordering apart. -/
abbrev Alike : Json → Json → Prop := ReflGen Reorder

/-- Properties of the same names in the same order, whose schemas are alike. -/
inductive AlikeFields : Fields → Fields → Prop where
  | nil : AlikeFields [] []
  | cons (name : String) {v w : Json} {rest others : Fields} (schema : Alike v w)
    (tail : AlikeFields rest others) : AlikeFields ((name, v) :: rest) ((name, w) :: others)

theorem AlikeFields.refl (fields : Fields) : AlikeFields fields fields := by
  induction fields with
  | nil => exact .nil
  | cons p rest ih => exact .cons p.1 .refl ih

theorem AlikeFields.append {a b c d : Fields} (hfirst : AlikeFields a b) (hlast : AlikeFields c d) :
    AlikeFields (a ++ c) (b ++ d) := by
  induction hfirst with
  | nil => exact hlast
  | cons name schema _ ih => exact .cons name schema ih

theorem AlikeFields.keys_eq {a b : Fields} (h : AlikeFields a b) : a.keys = b.keys := by
  induction h with
  | nil => rfl
  | cons name _ _ ih => exact congrArg (name :: ·) ih

theorem alike_nodes_refl (nodes : List Json) : List.Forall₂ Alike nodes nodes :=
  List.forall₂_same.mpr fun _ _ => .refl

/-! ## Alike nodes, keyword by keyword -/

/-- The keywords that hold nodes; the values of all others are data. -/
def nodeKeywords : List String := "items" :: "properties" :: combinators

theorem ReorderUnder.mem_nodeKeywords {keyword : String} {v w : Json}
    (h : ReorderUnder keyword v w) : keyword ∈ nodeKeywords := by
  cases h with
  | items => simp [nodeKeywords]
  | property => simp [nodeKeywords]
  | branch combines => simp [nodeKeywords, combines]

/-! What is under a keyword can be changed in one way. The keyword becomes a variable first, because
two different texts cannot be told apart by matching. -/

theorem ReorderUnder.items_inv {v w : Json} (h : ReorderUnder "items" v w) : Reorder v w := by
  generalize hkeyword : "items" = keyword at h
  cases h with
  | items inner => exact inner
  | property => exact absurd hkeyword (by decide)
  | branch combines => exact absurd (hkeyword ▸ combines) (by decide)

theorem ReorderUnder.properties_inv {v w : Json} (h : ReorderUnder "properties" v w) :
    ∃ (before after : Fields) (name : String) (x y : Json), Reorder x y ∧
      v = .obj (before ++ (name, x) :: after) ∧ w = .obj (before ++ (name, y) :: after) := by
  generalize hkeyword : "properties" = keyword at h
  cases h with
  | items => exact absurd hkeyword (by decide)
  | property before after name inner => exact ⟨before, after, name, _, _, inner, rfl, rfl⟩
  | branch combines => exact absurd (hkeyword ▸ combines) (by decide)

theorem ReorderUnder.combinators_inv {keyword : String} {v w : Json}
    (h : ReorderUnder keyword v w) (hkeyword : keyword ∈ combinators) :
    ∃ (before after : List Json) (x y : Json), Reorder x y ∧
      v = .arr (before ++ x :: after) ∧ w = .arr (before ++ y :: after) := by
  cases h with
  | items => exact absurd hkeyword (by decide)
  | property => exact absurd hkeyword (by decide)
  | branch _ before after inner => exact ⟨before, after, _, _, inner, rfl, rfl⟩

/-- Under each keyword, a reordering changes nothing or happens inside of the value. -/
theorem Reorder.get? {v w : Json} (h : Reorder v w) (keyword : String) :
    v.get? keyword = w.get? keyword ∨
      ∃ x y, v.get? keyword = some x ∧ w.get? keyword = some y ∧ ReorderUnder keyword x y := by
  cases h with
  | keywords perm nodup => exact .inl (Fields.get?_eq_of_perm perm nodup keyword)
  | @under before after changed v w inner =>
    show Fields.get? (before ++ (changed, v) :: after) keyword =
        Fields.get? (before ++ (changed, w) :: after) keyword ∨
      ∃ x y, Fields.get? (before ++ (changed, v) :: after) keyword = some x ∧
        Fields.get? (before ++ (changed, w) :: after) keyword = some y ∧ ReorderUnder keyword x y
    rw [Fields.get?_append, Fields.get?_append, Fields.get?, Fields.get?]
    -- An entry in front hides the changed one.
    cases before.get? keyword with
    | some first => exact .inl rfl
    | none =>
      by_cases hkeyword : changed = keyword
      · subst hkeyword
        rw [if_pos rfl, if_pos rfl]
        exact .inr ⟨v, w, rfl, rfl, inner⟩
      · rw [if_neg hkeyword, if_neg hkeyword]
        exact .inl rfl

/-- A node with its keywords ordered anew is an object still, with as many keywords. -/
theorem Reorder.exists_fields {v w : Json} (h : Reorder v w) :
    ∃ a b : Fields, v = .obj a ∧ w = .obj b ∧ a.isEmpty = b.isEmpty := by
  cases h with
  | keywords perm => exact ⟨_, _, rfl, rfl, perm.isEmpty_eq⟩
  | under before after => exact ⟨_, _, rfl, rfl, by cases before <;> rfl⟩

namespace Alike

variable {v w : Json}

theorem get? (h : Alike v w) (keyword : String) :
    v.get? keyword = w.get? keyword ∨
      ∃ x y, v.get? keyword = some x ∧ w.get? keyword = some y ∧ ReorderUnder keyword x y := by
  cases h with
  | refl => exact .inl rfl
  | single hreorder => exact hreorder.get? keyword

theorem isSome_get?_eq (h : Alike v w) (keyword : String) :
    (v.get? keyword).isSome = (w.get? keyword).isSome := by
  rcases h.get? keyword with heq | ⟨x, y, hx, hy, _⟩
  · rw [heq]
  · rw [hx, hy, Option.isSome_some, Option.isSome_some]

/-- The data under a keyword is the same. -/
theorem get?_eq (h : Alike v w) (keyword : String) (hdata : keyword ∉ nodeKeywords) :
    v.get? keyword = w.get? keyword := by
  rcases h.get? keyword with heq | ⟨x, y, _, _, hunder⟩
  · exact heq
  · exact absurd hunder.mem_nodeKeywords hdata

theorem nodes (h : Alike v w) {keyword : String} (hkeyword : keyword ∈ combinators) :
    List.Forall₂ Alike (((v.get? keyword).bind Json.asArray?).getD [])
      (((w.get? keyword).bind Json.asArray?).getD []) := by
  rcases h.get? keyword with heq | ⟨x, y, hx, hy, hunder⟩
  · rw [heq]
    exact alike_nodes_refl _
  · obtain ⟨before, after, x, y, inner, rfl, rfl⟩ := hunder.combinators_inv hkeyword
    rw [hx, hy]
    exact List.rel_append (alike_nodes_refl before)
      (.cons (.single inner) (alike_nodes_refl after))

theorem properties (h : Alike v w) : AlikeFields (properties v) (properties w) := by
  unfold Schema.properties
  rcases h.get? "properties" with heq | ⟨x, y, hx, hy, hunder⟩
  · rw [heq]
    exact .refl _
  · obtain ⟨before, after, name, x, y, inner, rfl, rfl⟩ := hunder.properties_inv
    rw [hx, hy]
    exact (AlikeFields.refl before).append (.cons name (.single inner) (.refl after))

theorem isSome_asObject?_eq (h : Alike v w) : v.asObject?.isSome = w.asObject?.isSome := by
  cases h with
  | refl => rfl
  | single hreorder =>
    obtain ⟨a, b, rfl, rfl, _⟩ := hreorder.exists_fields
    rfl

theorem requiredNames_eq (h : Alike v w) :
    requiredNames (v.get? "required") = requiredNames (w.get? "required") := by
  rw [h.get?_eq "required" (by decide)]

theorem isPinned_eq (h : Alike v w) : isPinned v = isPinned w :=
  h.isSome_get?_eq "const"

end Alike

/-! ## Alike nodes, read as a whole -/

/-- What a description is read from is all data. -/
theorem descriptionParts_eq {a b : Fields}
    (h : ∀ keyword, keyword ∉ nodeKeywords → a.get? keyword = b.get? keyword) :
    descriptionParts a = descriptionParts b := by
  unfold descriptionParts
  rw [h "description" (by decide), h "format" (by decide), h "enum" (by decide),
    h "pattern" (by decide), h "minimum" (by decide), h "maximum" (by decide),
    h "minLength" (by decide), h "maxLength" (by decide), h "examples" (by decide)]

/-- **Alike nodes have one description**: its parts have an order of their own. -/
theorem Alike.describe_eq {v w : Json} (h : Alike v w) : describe v = describe w := by
  cases h with
  | refl => rfl
  | single hreorder =>
    obtain ⟨a, b, rfl, rfl, _⟩ := hreorder.exists_fields
    have hparts : descriptionParts a = descriptionParts b :=
      descriptionParts_eq (Alike.get?_eq (.single hreorder))
    rw [describe, describe, hparts]

/-! ### The properties of branches -/

namespace AlikeFields

variable {a b : Fields}

theorem put (h : AlikeFields a b) (name : String) {v w : Json} (hvalue : Alike v w) :
    AlikeFields (a.put name v) (b.put name w) := by
  induction h with
  | nil => exact .cons name hvalue .nil
  | cons first schema tail ih =>
    by_cases hfirst : first = name
    · rw [Fields.put, Fields.put, if_pos hfirst, if_pos hfirst]
      exact .cons first hvalue tail
    · rw [Fields.put, Fields.put, if_neg hfirst, if_neg hfirst]
      exact .cons first schema ih

theorem has_eq (h : AlikeFields a b) (name : String) : a.has name = b.has name := by
  rw [Bool.eq_iff_iff, Fields.has_iff_mem_keys, Fields.has_iff_mem_keys, h.keys_eq]

theorem putNew (h : AlikeFields a b) (name : String) {v w : Json} (hvalue : Alike v w) :
    AlikeFields (a.putNew name v) (b.putNew name w) := by
  rw [Fields.putNew, Fields.putNew, h.has_eq name]
  split
  · exact h
  · exact h.put name hvalue

theorem override {new others : Fields} (h : AlikeFields a b) (hnew : AlikeFields new others) :
    AlikeFields (override a new) (override b others) := by
  induction hnew generalizing a b with
  | nil => exact h
  | cons name schema _ ih => exact ih (h.put name schema)

theorem supplement {new others : Fields} (h : AlikeFields a b) (hnew : AlikeFields new others) :
    AlikeFields (supplement a new) (supplement b others) := by
  induction hnew generalizing a b with
  | nil => exact h
  | cons name schema _ ih => exact ih (h.putNew name schema)

end AlikeFields

theorem Alike.variants {v w : Json} (h : Alike v w) :
    List.Forall₂ Alike (variants v) (variants w) :=
  List.rel_append (h.nodes (by decide)) (h.nodes (by decide))

theorem alikeFields_addBranch {a b : Fields} (h : AlikeFields a b) {v w : Json} (hvw : Alike v w) :
    AlikeFields (addBranch a v) (addBranch b w) :=
  List.rel_foldl (fun _ _ hkept _ _ hvariant => AlikeFields.supplement hkept hvariant.properties)
    (h.override hvw.properties) hvw.variants

theorem alikeFields_mergedProperties {parts others : List Json}
    (h : List.Forall₂ Alike parts others) :
    AlikeFields (mergedProperties parts) (mergedProperties others) :=
  have hstep : Relator.LiftFun AlikeFields (Relator.LiftFun Alike AlikeFields) addBranch addBranch :=
    fun _ _ hkept _ _ hbranch => alikeFields_addBranch hkept hbranch
  List.rel_foldl hstep .nil h

theorem mergedRequired_eq {parts others : List Json} (h : List.Forall₂ Alike parts others) :
    mergedRequired parts = mergedRequired others := by
  induction h with
  | nil => rfl
  | cons hfirst _ ih =>
    rw [mergedRequired, List.flatMap_cons, hfirst.requiredNames_eq, ← mergedRequired, ih]
    rfl

theorem lastType?_eq {parts others : List Json} (h : List.Forall₂ Alike parts others) :
    lastType? parts = lastType? others := by
  have htypes : parts.filterMap (fun branch => (branch.get? "type").filter Json.isTruthy) =
      others.filterMap (fun branch => (branch.get? "type").filter Json.isTruthy) := by
    induction h with
    | nil => rfl
    | cons hfirst _ ih =>
      rw [List.filterMap_cons, List.filterMap_cons, hfirst.get?_eq "type" (by decide), ih]
  rw [lastType?, lastType?, htypes]

/-! ### Forms -/

/-- Forms of one kind whose nodes are alike, in order. -/
inductive Form.Alike : Form → Form → Prop where
  | leaf (shape : Shape) : Alike (.leaf shape) (.leaf shape)
  | list {items others : Json} (hitems : Schema.Alike items others) :
    Alike (.list items) (.list others)
  | record {properties others : Fields} (required : List String)
    (hproperties : AlikeFields properties others) :
    Alike (.record properties required) (.record others required)
  | alternatives {nodes others : List Json} (hnodes : List.Forall₂ Schema.Alike nodes others) :
    Alike (.alternatives nodes) (.alternatives others)

theorem Form.alike_refl (f : Form) : f.Alike f := by
  cases f with
  | leaf shape => exact .leaf shape
  | list items => exact .list .refl
  | record properties required => exact .record required (.refl properties)
  | alternatives nodes => exact .alternatives (alike_nodes_refl nodes)

theorem alike_recordOr {properties others : Fields} (h : AlikeFields properties others)
    (required : List String) (otherwise : Shape) :
    (recordOr properties required otherwise).Alike (recordOr others required otherwise) := by
  unfold recordOr
  cases h with
  | nil => exact .leaf otherwise
  | cons name schema tail => exact .record required (.cons name schema tail)

namespace Reorder

variable {a b : Fields}

theorem get?_eq (h : Reorder (.obj a) (.obj b)) (keyword : String)
    (hdata : keyword ∉ nodeKeywords) : a.get? keyword = b.get? keyword :=
  Alike.get?_eq (.single h) keyword hdata

theorem has_eq (h : Reorder (.obj a) (.obj b)) (keyword : String) :
    a.has keyword = b.has keyword :=
  Alike.isSome_get?_eq (.single h) keyword

theorem alike_alternativesUnder (h : Reorder (.obj a) (.obj b)) {keyword : String}
    (hkeyword : keyword ∈ combinators) :
    (alternativesUnder a keyword).Alike (alternativesUnder b keyword) :=
  .alternatives (Alike.nodes (.single h) hkeyword)

theorem branches (h : Reorder (.obj a) (.obj b)) :
    List.Forall₂ Alike (branches a) (branches b) :=
  List.rel_filter (fun _ _ hbranch => iff_of_eq (congrArg (· = true) hbranch.isSome_asObject?_eq))
    (Alike.nodes (.single h) (by decide))

theorem alike_mergedForm (h : Reorder (.obj a) (.obj b)) : (mergedForm a).Alike (mergedForm b) := by
  unfold mergedForm
  dsimp only
  rw [mergedRequired_eq h.branches, lastType?_eq h.branches]
  exact alike_recordOr (alikeFields_mergedProperties h.branches) _ _

theorem alike_listForm (h : Reorder (.obj a) (.obj b)) : (listForm a).Alike (listForm b) := by
  unfold listForm
  rcases Reorder.get? h "items" with heq | ⟨x, y, hx, hy, hunder⟩
  · rw [show a.get? "items" = b.get? "items" from heq]
    exact Form.alike_refl _
  · rw [show a.get? "items" = some x from hx, show b.get? "items" = some y from hy]
    -- Items without keywords do not count, and a reordering adds none.
    obtain ⟨c, d, rfl, rfl, hempty⟩ := hunder.items_inv.exists_fields
    cases c with
    | nil =>
      cases d with
      | nil => exact .leaf .untypedSequence
      | cons q others => cases hempty
    | cons p rest =>
      cases d with
      | nil => cases hempty
      | cons q others => exact .list (.single hunder.items_inv)

theorem alike_objectForm (h : Reorder (.obj a) (.obj b)) : (objectForm a).Alike (objectForm b) := by
  unfold objectForm
  rw [h.get?_eq "required" (by decide)]
  exact alike_recordOr (AlikeFields.override .nil (Alike.properties (.single h))) _ _

theorem alike_typedForm (h : Reorder (.obj a) (.obj b)) : (typedForm a).Alike (typedForm b) := by
  unfold typedForm
  rw [h.get?_eq "type" (by decide), h.get?_eq "format" (by decide), h.has_eq "format"]
  split
  · exact .leaf _
  · split
    · exact h.alike_listForm
    · split
      · exact h.alike_objectForm
      · split
        · exact .leaf _
        · exact .leaf _
  · exact .leaf _

theorem enumShape_eq (h : Reorder (.obj a) (.obj b)) : enumShape a = enumShape b := by
  unfold enumShape
  rw [h.get?_eq "enum" (by decide), h.get?_eq "type" (by decide)]

end Reorder

/-- **Alike nodes have alike forms.** The keyword that decides is the same, and so is what it says,
up to the nodes in it. -/
theorem alike_form {v w : Json} (h : Alike v w) : (form v).Alike (form w) := by
  cases h with
  | refl => exact (form v).alike_refl
  | single hreorder =>
    obtain ⟨a, b, rfl, rfl, hempty⟩ := hreorder.exists_fields
    unfold form
    dsimp only
    -- The keywords that decide are asked for in their order, and each is there in both or in neither.
    rw [hempty, hreorder.has_eq "$ref", hreorder.has_eq "enum", hreorder.has_eq "allOf",
      hreorder.has_eq "anyOf", hreorder.has_eq "oneOf", hreorder.enumShape_eq]
    split
    · exact .leaf .unknown
    · split
      · exact .leaf (enumShape b)
      · split
        · exact hreorder.alike_mergedForm
        · split
          · exact hreorder.alike_alternativesUnder (by decide)
          · split
            · exact hreorder.alike_alternativesUnder (by decide)
            · exact hreorder.alike_typedForm

end ToolShape.Schema
