import ToolShape.Proofs.Tool.Catalog
import ToolShape.Proofs.Tool.Registry

/-!
# Registrations that fail

> **A registration fails for one reason, a name that is taken, and then nothing has happened. Several
> at once fail at the first such name, and then just what came before it has happened**
> (`Registry.failing_registrations_exact`).

A name is taken for a definition of a list if it is registered or an earlier one bears it
(`Registry.Taken`). Moving the first definition of the list over into the registry changes nothing
about which names are taken (`Registry.taken_register_iff`), and that carries the induction over the
list: either no name of it is taken, or there is a first one, and `Registry.registerAll_cases` says
of both what comes out.
-/

set_option autoImplicit false

namespace ToolShape.Registry

open Tool (Definition Catalog)

/-- An operation gives a failure instead of a result. -/
def Reply.Fails {α : Type} (reply : Reply α) : Prop := ∃ failure, reply.result = .error failure

theorem Reply.fails_error {α : Type} (r : Registry) (events : List Event) (failure : Failure) :
    (⟨r, events, .error failure⟩ : Reply α).Fails :=
  ⟨failure, rfl⟩

theorem Reply.not_fails_ok {α : Type} (r : Registry) (events : List Event) (value : α) :
    ¬ (⟨r, events, .ok value⟩ : Reply α).Fails := by
  rintro ⟨failure, hfailure⟩
  cases hfailure

/-- Registers definitions one by one, each on its own: the registry after the last, and the events
of all. -/
def registerEach (r : Registry) : List Definition → Registry × List Event
  | [] => (r, [])
  | definition :: rest =>
    let first := r.register definition
    let others := first.registry.registerEach rest
    (others.1, first.events ++ others.2)

variable {r : Registry} {definition : Definition}

/-! ## Registering one -/

theorem fails_register_iff :
    (r.register definition).Fails ↔ r.has definition.name.text = true := by
  cases h : r.has definition.name.text with
  | true =>
    rw [register_of_has h]
    exact iff_of_true (Reply.fails_error _ _ _) rfl
  | false =>
    rw [register_of_not_has h]
    exact iff_of_false (Reply.not_fails_ok _ _ _) Bool.false_ne_true

theorem fails_registerTool_iff {tool : Tool} :
    (r.registerTool tool).Fails ↔ r.has tool.name = true := by
  cases h : r.has tool.name with
  | true =>
    rw [registerTool_of_has h]
    exact iff_of_true (Reply.fails_error _ _ _) rfl
  | false =>
    rw [registerTool_of_not_has h]
    exact iff_of_false (Reply.not_fails_ok _ _ _) Bool.false_ne_true

/-! ## Names that are taken -/

/-- The name of a definition is registered, or one of the definitions before it bears it. -/
def Taken (r : Registry) (earlier : List Definition) (definition : Definition) : Prop :=
  r.has definition.name.text = true ∨ definition.name.text ∈ Catalog.names earlier

/-- The definition at a position is the first of a list whose name is taken. -/
structure FirstTaken (r : Registry) (definitions : List Definition) (k : Nat)
    (definition : Definition) : Prop where
  get_eq : definitions[k]? = some definition
  taken : r.Taken (definitions.take k) definition
  before : ∀ j < k, ∀ d, definitions[j]? = some d → ¬ r.Taken (definitions.take j) d

/-- No name of a list is registered, and none is borne twice. -/
def AllFree (r : Registry) (definitions : List Definition) : Prop :=
  (Catalog.names definitions).Nodup ∧ ∀ name ∈ Catalog.names definitions, r.has name = false

/-- After a registration, failed or not, its name is registered, besides those before. -/
theorem has_register (r : Registry) (definition : Definition) (name : String) :
    (r.register definition).registry.has name = (definition.name.text == name || r.has name) := by
  cases h : r.has definition.name.text with
  | true =>
    rw [register_of_has h]
    dsimp only
    by_cases hname : definition.name.text = name
    · rw [← hname, h, Bool.or_true]
    · rw [beq_false_of_ne hname, Bool.false_or]
  | false =>
    rw [register_of_not_has h]
    exact has_insert name

/-- It does not matter whether a definition is in the registry or still stands before the others. -/
theorem taken_register_iff {earlier : List Definition} {other : Definition} :
    (r.register definition).registry.Taken earlier other ↔
      r.Taken (definition :: earlier) other := by
  unfold Taken Catalog.names
  rw [has_register, Bool.or_eq_true, beq_iff_eq, List.map_cons, List.mem_cons,
    eq_comm (a := definition.name.text), or_assoc, or_left_comm]

theorem FirstTaken.cons {rest : List Definition} {k : Nat} {other : Definition}
    (hfree : r.has definition.name.text = false)
    (h : (r.register definition).registry.FirstTaken rest k other) :
    r.FirstTaken (definition :: rest) (k + 1) other := by
  refine ⟨h.get_eq, taken_register_iff.mp h.taken, fun j hj d hd => ?_⟩
  cases j with
  | zero =>
    cases hd
    rintro (hhas | hmem)
    · rw [hfree] at hhas
      cases hhas
    · cases hmem
  | succ j =>
    intro htaken
    exact h.before j (Nat.lt_of_succ_lt_succ hj) d hd (taken_register_iff.mpr htaken)

theorem AllFree.cons {rest : List Definition} (hfree : r.has definition.name.text = false)
    (h : (r.register definition).registry.AllFree rest) : r.AllFree (definition :: rest) := by
  obtain ⟨hnodup, hnone⟩ := h
  have hrest : ∀ name ∈ Catalog.names rest,
      definition.name.text ≠ name ∧ r.has name = false := by
    intro name hname
    have hnot := hnone name hname
    rw [has_register, Bool.or_eq_false_iff] at hnot
    exact ⟨ne_of_beq_false hnot.1, hnot.2⟩
  refine ⟨List.nodup_cons.mpr ⟨fun hmem => (hrest _ hmem).1 rfl, hnodup⟩, ?_⟩
  refine List.forall_mem_cons.mpr ⟨hfree, fun name hname => (hrest name hname).2⟩

theorem names_eq_append {definitions : List Definition} {k : Nat}
    (h : definitions[k]? = some definition) :
    Catalog.names definitions = Catalog.names (definitions.take k) ++
      definition.name.text :: Catalog.names (definitions.drop (k + 1)) := by
  obtain ⟨hk, rfl⟩ := List.getElem?_eq_some_iff.mp h
  unfold Catalog.names
  conv_lhs => rw [← List.take_append_drop k definitions, List.drop_eq_getElem_cons hk]
  rw [List.map_append, List.map_cons]

/-- Where a name is taken, not all are free. -/
theorem FirstTaken.not_allFree {definitions : List Definition} {k : Nat}
    (h : r.FirstTaken definitions k definition) : ¬ r.AllFree definitions := by
  rintro ⟨hnodup, hnone⟩
  rw [names_eq_append h.get_eq] at hnodup hnone
  rcases h.taken with hhas | hearlier
  · rw [hnone _ (List.mem_append_right _ List.mem_cons_self)] at hhas
    cases hhas
  · exact (List.nodup_append.mp hnodup).2.2 _ hearlier _ List.mem_cons_self rfl

/-! ## Registering several -/

theorem registerAll_cons_of_has (h : r.has definition.name.text = true)
    (rest : List Definition) :
    r.registerAll (definition :: rest) =
      ⟨r, [], .error (.alreadyRegistered definition.name.text)⟩ := by
  rw [registerAll, register_of_has h]

theorem registerAll_cons_of_not_has (h : r.has definition.name.text = false)
    (rest : List Definition) :
    r.registerAll (definition :: rest) =
      let others := (r.register definition).registry.registerAll rest
      ⟨others.registry, (r.register definition).events ++ others.events, others.result⟩ := by
  rw [registerAll, register_of_not_has h]

/-- **Several registrations at once are as many single ones, up to the first name that is taken.** By
induction on the list, for all registries at once. -/
theorem registerAll_cases (r : Registry) (definitions : List Definition) :
    (r.AllFree definitions ∧
      let each := r.registerEach definitions
      r.registerAll definitions = ⟨each.1, each.2, .ok ()⟩) ∨
    ∃ k definition, r.FirstTaken definitions k definition ∧
      let each := r.registerEach (definitions.take k)
      r.registerAll definitions =
        ⟨each.1, each.2, .error (.alreadyRegistered definition.name.text)⟩ := by
  induction definitions generalizing r with
  | nil => exact Or.inl ⟨⟨List.nodup_nil, by simp [Catalog.names]⟩, rfl⟩
  | cons definition rest ih =>
    cases h : r.has definition.name.text with
    | true =>
      refine Or.inr ⟨0, definition, ⟨rfl, Or.inl h, fun j hj => ?_⟩, ?_⟩
      · cases hj
      · exact registerAll_cons_of_has h rest
    | false =>
      rw [registerAll_cons_of_not_has h]
      rcases ih (r.register definition).registry with ⟨hfree, hall⟩ | ⟨k, other, hfirst, hall⟩
      · refine Or.inl ⟨hfree.cons h, ?_⟩
        rw [hall]
        rfl
      · refine Or.inr ⟨k + 1, other, hfirst.cons h, ?_⟩
        rw [hall]
        rfl

theorem registerAll_eq_ok_iff {definitions : List Definition} :
    (r.registerAll definitions).result = .ok () ↔ r.AllFree definitions := by
  rcases r.registerAll_cases definitions with ⟨hfree, hall⟩ | ⟨k, definition, hfirst, hall⟩
  · exact iff_of_true (congrArg Reply.result hall) hfree
  · refine iff_of_false (fun hresult => ?_) hfirst.not_allFree
    rw [hall] at hresult
    cases hresult

theorem registerAll_of_fails {definitions : List Definition}
    (h : (r.registerAll definitions).Fails) :
    ∃ k definition, r.FirstTaken definitions k definition ∧
      let each := r.registerEach (definitions.take k)
      r.registerAll definitions =
        ⟨each.1, each.2, .error (.alreadyRegistered definition.name.text)⟩ := by
  rcases r.registerAll_cases definitions with ⟨_, hall⟩ | hfirst
  · rw [hall] at h
    exact absurd h (Reply.not_fails_ok _ _ _)
  · exact hfirst

theorem registerDocument_of_repeated (r : Registry) {text : String} {document : Json}
    {rest : List Char} {definitions : List Definition}
    (hread : Json.readFirst text = .ok (document, rest))
    (hdecode : Catalog.decode document = .ok definitions)
    (h : ¬ (Catalog.names definitions).Nodup) :
    ∃ failure, r.registerDocument text = ⟨r, [], .error failure⟩ ∧
      (Json.atEnd rest = true →
        ∃ name ∈ Catalog.names definitions, failure = .definedTwice name) := by
  obtain ⟨failure, hparse, hname⟩ := Catalog.parse_of_repeated hread hdecode h
  refine ⟨failure, ?_, hname⟩
  rw [registerDocument, hparse]

/-- **What a failing registration leaves.** A definition or a tool fails exactly when its name is
registered, and then the registry is as before and there is no event. A list of definitions succeeds
exactly when all their names are free; if it fails, the first one whose name is taken gives the
failure, and registry and events are those of registering the ones before it, each on its own. A
document that repeats a name fails as a whole, and the registry is as before. -/
theorem failing_registrations_exact (r : Registry) :
    (∀ definition : Definition,
      ((r.register definition).Fails ↔ r.has definition.name.text = true) ∧
      ((r.register definition).Fails → r.register definition =
        ⟨r, [], .error (.alreadyRegistered definition.name.text)⟩)) ∧
    (∀ tool : Tool,
      ((r.registerTool tool).Fails ↔ r.has tool.name = true) ∧
      ((r.registerTool tool).Fails → r.registerTool tool =
        ⟨r, [], .error (.alreadyRegistered tool.name)⟩)) ∧
    (∀ definitions : List Definition,
      ((r.registerAll definitions).result = .ok () ↔
        (Catalog.names definitions).Nodup ∧
          ∀ name ∈ Catalog.names definitions, r.has name = false) ∧
      ((r.registerAll definitions).Fails →
        ∃ k definition, r.FirstTaken definitions k definition ∧
          let each := r.registerEach (definitions.take k)
          r.registerAll definitions =
            ⟨each.1, each.2, .error (.alreadyRegistered definition.name.text)⟩)) ∧
    ∀ text document rest definitions, Json.readFirst text = .ok (document, rest) →
      Catalog.decode document = .ok definitions → ¬ (Catalog.names definitions).Nodup →
      ∃ failure, r.registerDocument text = ⟨r, [], .error failure⟩ ∧
        (Json.atEnd rest = true →
          ∃ name ∈ Catalog.names definitions, failure = .definedTwice name) := by
  refine ⟨fun definition => ⟨fails_register_iff, fun h => ?_⟩,
    fun tool => ⟨fails_registerTool_iff, fun h => ?_⟩,
    fun definitions => ⟨registerAll_eq_ok_iff, registerAll_of_fails⟩,
    fun text document rest definitions => r.registerDocument_of_repeated⟩
  · exact register_of_has (fails_register_iff.mp h)
  · exact registerTool_of_has (fails_registerTool_iff.mp h)

/-- The second of two definitions of one name fails, and the first one stays. A document of the two
leaves nothing. -/
theorem failing_registrations_exact_for_two_pings :
    let ping : Definition := ⟨⟨"ping", by decide⟩, "", Definition.emptySchema⟩
    let r := empty ⟨.counting 0, 64⟩
    let each := r.registerEach [ping]
    r.registerAll [ping, ping] = ⟨each.1, each.2, .error (.alreadyRegistered "ping")⟩ ∧
      r.registerDocument "[[\"ping\"], [\"ping\"]]" = ⟨r, [], .error (.definedTwice "ping")⟩ := by
  intro ping r each
  have hrepeated : ¬ (Catalog.names [ping, ping]).Nodup := by decide
  obtain ⟨-, -, hlists, hdocuments⟩ := failing_registrations_exact r
  constructor
  · obtain ⟨hok, hfails⟩ := hlists [ping, ping]
    have hfailed : (r.registerAll [ping, ping]).Fails := by
      cases hresult : (r.registerAll [ping, ping]).result with
      | ok => exact absurd (hok.mp hresult).1 hrepeated
      | error failure => exact ⟨failure, hresult⟩
    obtain ⟨k, definition, hfirst, hall⟩ := hfails hfailed
    match k, hfirst.get_eq with
    | 0, rfl =>
      rcases hfirst.taken with hhas | hmem
      · simp [r, empty, has] at hhas
      · cases hmem
    | 1, rfl => exact hall
  · obtain ⟨failure, hall, hname⟩ := hdocuments "[[\"ping\"], [\"ping\"]]"
      (.arr [.arr [.str "ping"], .arr [.str "ping"]]) [] [ping, ping] (by cbv) (by cbv) hrepeated
    obtain ⟨name, hmem, rfl⟩ := hname rfl
    have hping : name = "ping" := by simpa [Catalog.names, ping] using hmem
    rw [hall, hping]

end ToolShape.Registry
