import ToolShape.Tool.Catalog
import Mathlib.Data.List.Nodup

/-!
# Catalogs without repeated names

A document makes a catalog only if its definitions bear different names
(`Tool.Catalog.nodup_names_of_parse`); the first name that comes a second time is what it fails with
(`Tool.Catalog.parse_of_repeated`).
-/

set_option autoImplicit false

namespace ToolShape.Tool.Catalog

/-- No name is found a second time exactly when none is repeated and none was seen before. -/
theorem repeated?_eq_none_iff {seen names : List String} :
    repeated? seen names = none ↔ names.Nodup ∧ ∀ name ∈ names, name ∉ seen := by
  induction names generalizing seen with
  | nil => simp [repeated?]
  | cons name rest ih =>
    rw [repeated?, List.nodup_cons, List.forall_mem_cons]
    by_cases hseen : name ∈ seen
    · rw [if_pos (List.contains_iff_mem.mpr hseen)]
      simp [hseen]
    · rw [if_neg fun h => hseen (List.contains_iff_mem.mp h), ih]
      -- The others must avoid what was seen before and the name in front of them.
      simp only [List.mem_cons, not_or]
      constructor
      · rintro ⟨hnodup, hothers⟩
        exact ⟨⟨fun hmem => (hothers name hmem).1 rfl, hnodup⟩, hseen,
          fun other hother => (hothers other hother).2⟩
      · rintro ⟨⟨hnot, hnodup⟩, -, hothers⟩
        exact ⟨hnodup, fun other hother => ⟨fun e => hnot (e ▸ hother), hothers other hother⟩⟩

theorem mem_of_repeated?_eq_some {seen names : List String} {name : String}
    (h : repeated? seen names = some name) : name ∈ names := by
  induction names generalizing seen with
  | nil => cases h
  | cons first rest ih =>
    rw [repeated?] at h
    split at h
    · cases h
      exact List.mem_cons_self
    · exact List.mem_cons_of_mem first (ih h)

theorem nodup_names_of_ofDefinitions {definitions : List Definition} {catalog : Catalog}
    (h : ofDefinitions definitions = .ok catalog) : (names catalog.definitions).Nodup := by
  unfold ofDefinitions at h
  split at h
  · cases h
  · next hnone =>
    cases h
    exact (repeated?_eq_none_iff.mp hnone).1

/-- No two definitions of a document that parses share a name. -/
theorem nodup_names_of_parse {text : String} {catalog : Catalog}
    (h : parse text = .ok catalog) : (names catalog.definitions).Nodup := by
  unfold parse at h
  split at h
  · cases h
  · split at h
    · cases h
    · split at h
      · exact nodup_names_of_ofDefinitions h
      · cases h

/-- Definitions of which two share a name make no catalog. -/
theorem ofDefinitions_of_repeated {definitions : List Definition}
    (h : ¬ (names definitions).Nodup) :
    ∃ name ∈ names definitions, ofDefinitions definitions = .error (.definedTwice name) := by
  unfold ofDefinitions
  cases hrepeated : repeated? [] (names definitions) with
  | none => exact absurd (repeated?_eq_none_iff.mp hrepeated).1 h
  | some name => exact ⟨name, mem_of_repeated?_eq_some hrepeated, rfl⟩

/-- **A document that repeats a name makes no catalog**; it fails with a repeated name, unless
something is wrong with its text as well. -/
theorem parse_of_repeated {text : String} {document : Json} {rest : List Char}
    {definitions : List Definition} (hread : Json.readFirst text = .ok (document, rest))
    (hdecode : decode document = .ok definitions) (h : ¬ (names definitions).Nodup) :
    ∃ failure, parse text = .error failure ∧
      (Json.atEnd rest = true → ∃ name ∈ names definitions, failure = .definedTwice name) := by
  obtain ⟨name, hname, hfails⟩ := ofDefinitions_of_repeated h
  unfold parse
  rw [hread]
  dsimp only
  rw [hdecode]
  dsimp only
  cases hend : Json.atEnd rest with
  | true => exact ⟨.definedTwice name, by simp [hfails], fun _ => ⟨name, hname, rfl⟩⟩
  | false => exact ⟨.unreadable .malformed, by simp, fun h => by cases h⟩

end ToolShape.Tool.Catalog
