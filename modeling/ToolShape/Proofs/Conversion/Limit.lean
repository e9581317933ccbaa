import ToolShape.Proofs.Conversion.Meaning

/-!
# The limit on nesting

A node below the limit is any value, and an event says so. This file is about two conversions of one
schema that differ in the limit alone:

> **the lower limit accepts whatever the higher one does** (`Converter.accepted_of_deeper_limit`),
> and **a limit that cut nothing off might as well have been higher**
> (`Converter.outcome_eq_of_uncut`).

The two trees are no help for the first: a node that is cut off may become the same as its
neighbour and vanish from their union, so neither tree is a part of the other. What is compared is
what the two readings of the schema admit, where a node asks less as soon as the nodes in it do
(`Schema.NodeAdmits.mono`). The second is about everything that a conversion gives, names and draws
and events, and goes along the levels of the lower limit: it holds at once below the last of them,
where there is no result without an event.
-/

set_option autoImplicit false

namespace ToolShape

open Json (Fields)
open Name (Context)

/-! ## Asking less of the nodes in a node -/

namespace Schema

variable {strict lax : Json → Json → Prop} {v : Json}

theorem Holds.mono (hle : ∀ node w, strict node w → lax node w) {required : List String}
    {object : Fields} {name : String} {schema : Json}
    (h : Holds strict required object name schema) : Holds lax required object name schema := by
  unfold Holds at h ⊢
  cases hv : object.get? name with
  | none =>
    rw [hv] at h
    exact h
  | some w =>
    rw [hv] at h
    rcases h with hnull | hadmits
    · exact Or.inl hnull
    · exact Or.inr (hle schema w hadmits)

theorem Satisfies.mono (hle : ∀ node w, strict node w → lax node w) {declared : Fields}
    {required : List String} (h : Satisfies strict declared required v) :
    Satisfies lax declared required v := by
  obtain ⟨object, rfl, hfields⟩ := h
  exact ⟨object, rfl, fun name schema hdeclared => (hfields name schema hdeclared).mono hle⟩

theorem AdmitsSome.mono (hle : ∀ node w, strict node w → lax node w) {nodes : List Json}
    (h : AdmitsSome strict nodes v) : AdmitsSome lax nodes v := by
  rcases h with hnil | ⟨node, hmem, hnode⟩
  · exact Or.inl hnil
  · refine Or.inr ⟨node, hmem, ?_⟩
    -- A pinned node asks for a string whatever the other nodes ask.
    cases hpin : isPinned node with
    | true =>
      rw [hpin] at hnode
      exact hnode
    | false =>
      rw [hpin] at hnode
      exact hle node v hnode

theorem Form.Admits.mono (hle : ∀ node w, strict node w → lax node w) {form : Form}
    (h : form.Admits strict v) : form.Admits lax v := by
  cases form with
  | leaf shape => exact h
  | list items =>
    obtain ⟨vs, rfl, hitems⟩ := h
    exact ⟨vs, rfl, fun w hw => hle items w (hitems w hw)⟩
  | record properties required =>
    obtain ⟨object, rfl, hfields⟩ := h
    exact ⟨object, rfl, fun p hp => (hfields p hp).mono hle⟩
  | alternatives nodes => exact AdmitsSome.mono hle h

/-- **A node asks less as soon as the nodes in it do.** -/
theorem NodeAdmits.mono (hle : ∀ node w, strict node w → lax node w) {node : Json}
    (h : NodeAdmits strict node v) : NodeAdmits lax node v := by
  rw [← admits_form_iff] at h ⊢
  exact h.mono hle

/-- **A lower limit admits whatever a higher one does**, at every depth. -/
theorem Admits.of_limit_le {limit deeper : Nat} (hle : limit ≤ deeper) (depth : Nat)
    (node w : Json) (h : Admits deeper depth node w) : Admits limit depth node w := by
  by_cases hcut : limit < depth
  · exact admits_of_lt hcut node w
  · have hdepth : depth ≤ limit := Nat.le_of_not_lt hcut
    rw [admits_iff_nodeAdmits (Nat.le_trans hdepth hle)] at h
    rw [admits_iff_nodeAdmits hdepth]
    exact h.mono fun inner u => Admits.of_limit_le hle (depth + 1) inner u
termination_by limit + 1 - depth

end Schema

namespace Converter

/-- **The limit only ever widens.** A value without issues under the higher limit has none under the
lower one, whatever is converted, from whichever sources, positions and tool names. -/
theorem accepted_of_deeper_limit {shallow deep : Converter}
    (h : shallow.maxDepth ≤ deep.maxDepth) (p q : Nat) (v : Json) :
    (∀ toolName otherName schema, (deep.convert toolName schema q).value.issues v = [] →
      (shallow.convert otherName schema p).value.issues v = []) ∧
    (∀ c d properties required, (deep.buildRecord c properties required q).value.issues v = [] →
      (shallow.buildRecord d properties required p).value.issues v = []) ∧
    ∀ c d node, (deep.resolve node c q).value.issues v = [] →
      (shallow.resolve node d p).value.issues v = [] := by
  have hbuilt : ∀ c d properties required,
      (deep.buildRecord c properties required q).value.issues v = [] →
        (shallow.buildRecord d properties required p).value.issues v = [] := by
    intro c d properties required hdeep
    rw [RecordShape.issues_eq, Shape.issues_eq_nil_iff, accepts_buildRecord_iff] at hdeep ⊢
    exact hdeep.mono (Schema.Admits.of_limit_le h 1)
  refine ⟨fun toolName otherName schema hdeep => ?_, hbuilt, fun c d node hdeep => ?_⟩
  · rw [convert_apply] at hdeep ⊢
    exact hbuilt _ _ _ _ hdeep
  · rw [Shape.issues_eq_nil_iff, accepts_resolve_iff] at hdeep ⊢
    exact Schema.Admits.of_limit_le h 1 node v hdeep

/-- Two lists of different items, whose items the lower limit cuts off: there the alternatives are
the same and only one of them is left. -/
theorem accepted_of_deeper_limit_for_twin_lists :
    let list (type : String) : Json :=
      .obj [("type", .str "array"), ("items", .obj [("type", .str type)])]
    let schema : Json := .obj [("properties",
      .obj [("keys", .obj [("anyOf", .arr [list "string", list "integer"])])])]
    let v : Json := .obj [("keys", .arr [.num (.int 1), .num (.int 2)])]
    let shallow : Converter := ⟨.counting 0, 2⟩
    let deep : Converter := ⟨.counting 7, 3⟩
    shallow.maxDepth ≤ deep.maxDepth ∧ (deep.convert "search" schema 5).value.issues v = [] ∧
      (shallow.convert "search" schema 0).value.issues v = [] := by
  intro list schema v shallow deep
  have hlimit : shallow.maxDepth ≤ deep.maxDepth := by decide
  have hdeep : (deep.convert "search" schema 5).value.issues v = [] :=
    List.isEmpty_iff.mp (by decide +kernel)
  exact ⟨hlimit, hdeep,
    (accepted_of_deeper_limit hlimit 0 5 v).1 "search" "search" schema hdeep⟩

end Converter

/-! ## Limits that cut nothing off -/

/-- Whether an event says that a node was cut off at the limit. -/
def Event.isDepthExceeded : Event → Bool
  | .depthExceeded .. => true
  | _ => false

/-- No event says that a node was cut off at the limit. -/
def Outcome.Uncut {α : Type} (outcome : Outcome α) : Prop :=
  ∀ e ∈ outcome.events, e.isDepthExceeded = false

instance {α : Type} (outcome : Outcome α) : Decidable outcome.Uncut :=
  inferInstanceAs (Decidable (∀ e ∈ outcome.events, e.isDepthExceeded = false))

theorem Outcome.uncut_mk_append_iff {α : Type} {value : α} {drawn : Nat} {first others : List Event} :
    (⟨value, drawn, first ++ others⟩ : Outcome α).Uncut ↔
      (∀ e ∈ first, e.isDepthExceeded = false) ∧ ∀ e ∈ others, e.isDepthExceeded = false :=
  List.forall_mem_append

namespace Converter

/-- One way to resolve gives what another gives, wherever the other cuts nothing off. -/
def Completes (deep shallow : Resolution) : Prop :=
  ∀ node context position, (shallow node context position).Uncut →
    deep node context position = shallow node context position

variable {deep shallow : Resolution}

theorem resolveFields_eq_of_uncut (h : Completes deep shallow) (required : List String)
    (properties : Fields) (position : Nat)
    (huncut : (resolveFields shallow required properties position).Uncut) :
    resolveFields deep required properties position =
      resolveFields shallow required properties position := by
  induction properties generalizing position with
  | nil => rfl
  | cons p rest ih =>
    obtain ⟨name, schema⟩ := p
    rw [resolveFields_cons] at huncut
    obtain ⟨hfirst, hothers⟩ := Outcome.uncut_mk_append_iff.mp huncut
    rw [resolveFields_cons, resolveFields_cons, h schema (Context.ofField name) position hfirst]
    dsimp only
    rw [ih _ hothers]

theorem resolveRecord_eq_of_uncut (h : Completes deep shallow) {A B : Converter}
    (hsource : B.source = A.source) (context : Context) (properties : Fields)
    (required : List String) (position : Nat)
    (huncut : (A.resolveRecord shallow context properties required position).Uncut) :
    B.resolveRecord deep context properties required position =
      A.resolveRecord shallow context properties required position := by
  rw [resolveRecord_apply] at huncut
  obtain ⟨hfields, _⟩ := Outcome.uncut_mk_append_iff.mp huncut
  rw [resolveRecord_apply, resolveRecord_apply, hsource,
    resolveFields_eq_of_uncut h required properties position hfields]

theorem resolveAlternative_eq_of_uncut (h : Completes deep shallow) (context : Context)
    (node : Json) (position : Nat)
    (huncut : (resolveAlternative shallow context node position).Uncut) :
    resolveAlternative deep context node position =
      resolveAlternative shallow context node position := by
  cases hpin : Schema.isPinned node with
  | true => rw [resolveAlternative_of_isPinned hpin, resolveAlternative_of_isPinned hpin]
  | false =>
    rw [resolveAlternative_of_not_isPinned hpin] at huncut
    rw [resolveAlternative_of_not_isPinned hpin, resolveAlternative_of_not_isPinned hpin]
    exact h node context position huncut

theorem resolveAlternatives_eq_of_uncut (h : Completes deep shallow) (context : Context)
    (nodes : List Json) (position : Nat)
    (huncut : (resolveAlternatives shallow context nodes position).Uncut) :
    resolveAlternatives deep context nodes position =
      resolveAlternatives shallow context nodes position := by
  induction nodes generalizing position with
  | nil => rfl
  | cons node rest ih =>
    rw [resolveAlternatives_cons] at huncut
    obtain ⟨hfirst, hothers⟩ := Outcome.uncut_mk_append_iff.mp huncut
    rw [resolveAlternatives_cons, resolveAlternatives_cons,
      resolveAlternative_eq_of_uncut h context node position hfirst]
    dsimp only
    rw [ih _ hothers]

/-- **Further levels change nothing where the present ones cut nothing off.** By induction on the
present levels. -/
theorem completes_resolveWithin {A B : Converter} (hsource : B.source = A.source)
    (levels extra : Nat) :
    Completes (B.resolveWithin (levels + extra)) (A.resolveWithin levels) := by
  induction levels with
  | zero =>
    intro node context position huncut
    -- Without levels there is nothing but the event.
    rw [resolveWithin_zero] at huncut
    cases huncut _ List.mem_cons_self
  | succ levels ih =>
    intro node context position huncut
    rw [Nat.succ_add]
    cases hform : Schema.form node with
    | leaf shape => rw [resolveWithin_leaf hform, resolveWithin_leaf hform]
    | list items =>
      rw [resolveWithin_list hform] at huncut
      rw [resolveWithin_list hform, resolveWithin_list hform, ih items context.item position huncut]
    | record properties required =>
      rw [resolveWithin_record hform] at huncut
      rw [resolveWithin_record hform, resolveWithin_record hform,
        resolveRecord_eq_of_uncut ih hsource context properties required position huncut]
    | alternatives nodes =>
      rw [resolveWithin_alternatives hform] at huncut
      rw [resolveWithin_alternatives hform, resolveWithin_alternatives hform,
        resolveAlternatives_eq_of_uncut ih context nodes position huncut]

/-- **A limit that cuts nothing off might as well be higher.** As long as no event says that a node
was cut off, a converter with a higher limit gives the same from the same position of the same
source: value, names included, draws and events. -/
theorem outcome_eq_of_uncut {shallow deep : Converter} (hsource : deep.source = shallow.source)
    (hlimit : shallow.maxDepth ≤ deep.maxDepth) (position : Nat) :
    (∀ toolName schema, (shallow.convert toolName schema position).Uncut →
      deep.convert toolName schema position = shallow.convert toolName schema position) ∧
    (∀ context properties required,
      (shallow.buildRecord context properties required position).Uncut →
        deep.buildRecord context properties required position =
          shallow.buildRecord context properties required position) ∧
    ∀ node context, (shallow.resolve node context position).Uncut →
      deep.resolve node context position = shallow.resolve node context position := by
  obtain ⟨extra, hextra⟩ := Nat.exists_eq_add_of_le hlimit
  have hcompletes : Completes (deep.resolveWithin deep.maxDepth)
      (shallow.resolveWithin shallow.maxDepth) :=
    hextra ▸ completes_resolveWithin hsource shallow.maxDepth extra
  have hbuilt : ∀ context properties required,
      (shallow.buildRecord context properties required position).Uncut →
        deep.buildRecord context properties required position =
          shallow.buildRecord context properties required position :=
    fun context properties required =>
      resolveRecord_eq_of_uncut hcompletes hsource context _ required position
  refine ⟨fun toolName schema huncut => ?_, hbuilt, fun node context => ?_⟩
  · rw [convert_apply] at huncut
    obtain ⟨hinner, _⟩ := Outcome.uncut_mk_append_iff.mp huncut
    rw [convert_apply, convert_apply, hbuilt _ _ _ hinner]
  · exact hcompletes node context position

/-- A schema that needs three levels: two would cut it off, and further ones change nothing. -/
theorem outcome_eq_of_uncut_at_three_levels :
    let list (type : String) : Json :=
      .obj [("type", .str "array"), ("items", .obj [("type", .str type)])]
    let filter : Json := .obj [("type", .str "object"), ("properties", .obj [("keys",
      .obj [("anyOf", .arr [.obj [("type", .str "string")], .obj [("const", .null)]])])])]
    let schema : Json := .obj [("properties",
      .obj [("keys", .obj [("anyOf", .arr [list "string", list "integer"])]), ("filter", filter)])]
    let limited (limit : Nat) : Converter := ⟨.counting 0, limit⟩
    (limited 64).source = (limited 3).source ∧ (limited 3).maxDepth ≤ (limited 64).maxDepth ∧
      ¬ ((limited 2).convert "search" schema 0).Uncut ∧
      ((limited 3).convert "search" schema 0).Uncut ∧
      (limited 64).convert "search" schema 0 = (limited 3).convert "search" schema 0 := by
  intro list filter schema limited
  have hsource : (limited 64).source = (limited 3).source := rfl
  have hlimit : (limited 3).maxDepth ≤ (limited 64).maxDepth := by decide
  have hcut : ¬ ((limited 2).convert "search" schema 0).Uncut := by decide +kernel
  have huncut : ((limited 3).convert "search" schema 0).Uncut := by decide +kernel
  exact ⟨hsource, hlimit, hcut, huncut,
    (outcome_eq_of_uncut hsource hlimit 0).1 "search" schema huncut⟩

end Converter

end ToolShape
