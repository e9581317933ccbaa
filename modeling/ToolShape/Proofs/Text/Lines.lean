import Mathlib.Data.String.Basic

/-!
# The lines of a text

A text is cut at its line feeds. What is joined with line feeds has the lines of its parts
(`Text.lines_intercalate`), and has as many lines as parts exactly when no part holds one
(`Text.length_flatMap_lines_eq_iff`).

A flat text holds no control character at all; line feeds are control characters, and so is
everything that ends a line in ASCII.
-/

set_option autoImplicit false

namespace ToolShape.Text

/-- A text without a line feed. -/
def OneLine (text : String) : Prop := '\n' ∉ text.toList

instance (text : String) : Decidable (OneLine text) := instDecidableNot

/-- The pieces of a text between its line feeds. -/
def lines (text : String) : List String := (text.toList.splitOn '\n').map String.ofList

theorem lines_append_feed (first others : String) :
    lines (first ++ "\n" ++ others) = lines first ++ lines others := by
  have htext : (first ++ "\n" ++ others).toList = first.toList ++ '\n' :: others.toList := by
    rw [String.toList_append, String.toList_append, List.append_assoc]
    rfl
  rw [lines, htext, List.splitOn_append_cons_self, List.map_append]
  rfl

theorem lines_eq_singleton {text : String} (h : OneLine text) : lines text = [text] := by
  rw [lines, List.splitOn_eq_singleton h, List.map_singleton, String.ofList_toList]

/-- **What is joined with line feeds has the lines of its parts.** -/
theorem lines_intercalate {parts : List String} (h : parts ≠ []) :
    lines ("\n".intercalate parts) = parts.flatMap lines := by
  induction parts with
  | nil => exact absurd rfl h
  | cons part rest ih =>
    cases rest with
    | nil => simp
    | cons next rest =>
      rw [String.intercalate_cons_cons, lines_append_feed, ih (List.cons_ne_nil next rest)]
      rfl

/-- There is one line more than there are line feeds. -/
theorem length_lines (text : String) : (lines text).length = text.toList.count '\n' + 1 := by
  suffices h : ∀ cs : List Char, (cs.splitOn '\n').length = cs.count '\n' + 1 by
    rw [lines, List.length_map, h]
  intro cs
  induction cs with
  | nil => rfl
  | cons c rest ih =>
    rw [List.splitOn_eq_splitOnP] at ih ⊢
    rw [List.splitOnP_cons_eq_if_modifyHead]
    split
    · next hc => rw [List.length_cons, ih, beq_iff_eq.mp hc, List.count_cons_self]
    · next hc => rw [List.length_modifyHead, ih, List.count_cons_of_ne fun h => hc (by simp [h])]

theorem flatMap_lines_eq_self {parts : List String} (h : ∀ part ∈ parts, OneLine part) :
    parts.flatMap lines = parts := by
  have hsingle : parts.flatMap lines = parts.flatMap fun part => [part] :=
    List.flatMap_congr fun part hpart => lines_eq_singleton (h part hpart)
  rw [hsingle, ← List.map_eq_flatMap, List.map_id']

theorem length_le_flatMap_lines (parts : List String) :
    parts.length ≤ (parts.flatMap lines).length := by
  induction parts with
  | nil => exact Nat.le_refl 0
  | cons part rest ih =>
    rw [List.flatMap_cons, List.length_append, List.length_cons, length_lines]
    omega

/-- **There are as many lines as parts when no part holds a line feed**, and more otherwise. -/
theorem length_flatMap_lines_eq_iff {parts : List String} :
    (parts.flatMap lines).length = parts.length ↔ ∀ part ∈ parts, OneLine part := by
  induction parts with
  | nil => simp
  | cons part rest ih =>
    -- The others have at least one line each, so the first part cannot make up for them.
    have hrest := length_le_flatMap_lines rest
    rw [List.flatMap_cons, List.length_append, List.length_cons, List.forall_mem_cons, ← ih,
      length_lines, OneLine, ← List.count_eq_zero]
    omega

/-! ## Flat texts -/

/-- A text without control characters. -/
def Flat (text : String) : Prop := ∀ c ∈ text.toList, 32 ≤ c.toNat

instance (text : String) : Decidable (Flat text) :=
  List.decidableBAll (fun c : Char => 32 ≤ c.toNat) text.toList

theorem Flat.not_mem {text : String} (h : Flat text) {c : Char} (hc : c.toNat < 32) :
    c ∉ text.toList :=
  fun hmem => Nat.not_le_of_lt hc (h c hmem)

theorem flat_ofList_iff {cs : List Char} :
    Flat (String.ofList cs) ↔ ∀ c ∈ cs, 32 ≤ c.toNat := by
  rw [Flat, String.toList_ofList]

theorem flat_append_iff {text more : String} : Flat (text ++ more) ↔ Flat text ∧ Flat more := by
  unfold Flat
  rw [String.toList_append, List.forall_mem_append]

/-- What joined lists hold is in one of them or in the separator. -/
theorem mem_or_exists_of_mem_intercalate {α : Type} {separator : List α} {parts : List (List α)}
    {a : α} (h : a ∈ separator.intercalate parts) : a ∈ separator ∨ ∃ part ∈ parts, a ∈ part := by
  induction parts with
  | nil => cases h
  | cons part rest ih =>
    cases rest with
    | nil => exact Or.inr ⟨part, List.mem_singleton_self part, by simpa using h⟩
    | cons next rest =>
      rw [List.intercalate_cons_cons, List.append_assoc, List.mem_append, List.mem_append] at h
      rcases h with hpart | hseparator | hrest
      · exact Or.inr ⟨part, List.mem_cons_self, hpart⟩
      · exact Or.inl hseparator
      · rcases ih hrest with hseparator | ⟨other, hother, hmem⟩
        · exact Or.inl hseparator
        · exact Or.inr ⟨other, List.mem_cons_of_mem part hother, hmem⟩

theorem mem_toList_intercalate {separator : String} {parts : List String} {c : Char}
    (h : c ∈ (separator.intercalate parts).toList) :
    c ∈ separator.toList ∨ ∃ part ∈ parts, c ∈ part.toList := by
  rw [String.toList_intercalate] at h
  rcases mem_or_exists_of_mem_intercalate h with hseparator | ⟨cs, hcs, hmem⟩
  · exact Or.inl hseparator
  · obtain ⟨part, hpart, rfl⟩ := List.mem_map.mp hcs
    exact Or.inr ⟨part, hpart, hmem⟩

theorem mem_toList_intercalate_of_mem {separator : String} {parts : List String} {part : String}
    (hpart : part ∈ parts) {c : Char} (h : c ∈ part.toList) :
    c ∈ (separator.intercalate parts).toList := by
  induction parts with
  | nil => cases hpart
  | cons first rest ih =>
    cases rest with
    | nil =>
      rw [List.mem_singleton] at hpart
      rw [String.intercalate_singleton, ← hpart]
      exact h
    | cons next rest =>
      rw [String.intercalate_cons_cons, String.toList_append, List.mem_append]
      rcases List.mem_cons.mp hpart with rfl | hrest
      · rw [String.toList_append]
        exact Or.inl (List.mem_append_left _ h)
      · exact Or.inr (ih hrest)

theorem flat_intercalate {separator : String} {parts : List String} (hseparator : Flat separator)
    (hparts : ∀ part ∈ parts, Flat part) : Flat (separator.intercalate parts) := by
  intro c hc
  rcases mem_toList_intercalate hc with hmem | ⟨part, hpart, hmem⟩
  · exact hseparator c hmem
  · exact hparts part hpart c hmem

/-! ## Texts of one line -/

theorem Flat.oneLine {text : String} (h : Flat text) : OneLine text := h.not_mem (by decide)

theorem oneLine_append_iff {text more : String} :
    OneLine (text ++ more) ↔ OneLine text ∧ OneLine more := by
  unfold OneLine
  rw [String.toList_append, List.mem_append, not_or]

theorem oneLine_intercalate_iff {separator : String} {parts : List String}
    (hseparator : OneLine separator) :
    OneLine (separator.intercalate parts) ↔ ∀ part ∈ parts, OneLine part := by
  constructor
  · exact fun h part hpart hmem => h (mem_toList_intercalate_of_mem hpart hmem)
  · intro h hmem
    rcases mem_toList_intercalate hmem with hfeed | ⟨part, hpart, hin⟩
    · exact hseparator hfeed
    · exact h part hpart hin

end ToolShape.Text
