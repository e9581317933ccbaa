import ToolShape.Proofs.Name.Generated
import Mathlib.Data.Fintype.BigOperators
import Mathlib.Logic.Function.Basic

/-!
# Replacing suffixes

A generated name is its context and its suffix and nothing else (`Name.eq_generated_of_parse?`), so
replacing suffixes is a renaming (`Name.resuffix`).

There are `2 ^ 32` suffixes. A list of different ones is no longer than that, and a counter runs
through as many before it repeats one; so some replacement turns the suffixes counted from zero into
those of the list (`Name.exists_replacement`).
-/

set_option autoImplicit false

namespace ToolShape.Name

/-! ## The parts of a name -/

theorem eq_append_of_after? {start text rest : List Char} (h : after? start text = some rest) :
    text = start ++ rest := by
  induction start generalizing text with
  | nil =>
    cases h
    rfl
  | cons s start ih =>
    cases text with
    | nil => cases h
    | cons c text =>
      rw [after?] at h
      split at h
      · next hc => rw [hc, ih h, List.cons_append]
      · cases h

theorem eq_append_of_splitLast? {text before behind : List Char}
    (h : splitLast? text = some (before, behind)) : text = before ++ '_' :: behind := by
  induction text generalizing before with
  | nil => cases h
  | cons c rest ih =>
    rw [splitLast?] at h
    cases hrest : splitLast? rest with
    | some parts =>
      obtain ⟨inner, last⟩ := parts
      rw [hrest] at h
      cases h
      rw [List.cons_append, ← ih hrest]
    | none =>
      rw [hrest] at h
      dsimp only at h
      split at h
      · next hc =>
        cases h
        rw [hc, List.nil_append]
      · cases h

/-- **A name that has parts is generated from them.** -/
theorem eq_generated_of_parse? {name : String} {context : Context} {suffix : Suffix}
    (h : parse? name = some (context, suffix)) : name = generated context suffix := by
  simp only [parse?, Option.bind_eq_bind, Option.bind_eq_some_iff, Option.pure_def,
    Option.some.injEq, Prod.mk.injEq, Prod.exists] at h
  obtain ⟨rest, hafter, before, behind, hsplit, found, hfound, rfl, rfl⟩ := h
  apply String.toList_injective
  rw [eq_append_of_after? hafter, eq_append_of_splitLast? hsplit,
    ← Suffix.digits_of_ofChars? hfound]
  simp [generated, Suffix.text]

theorem exists_eq_generated_of_suffix? {name : String} {suffix : Suffix}
    (h : suffix? name = some suffix) : ∃ context, name = generated context suffix := by
  rw [suffix?, Option.map_eq_some_iff] at h
  obtain ⟨⟨context, found⟩, hparse, rfl⟩ := h
  exact ⟨context, eq_generated_of_parse? hparse⟩

/-! ## Replacing the suffix of a name -/

/-- A name with its suffix replaced; a name without one stays as it is. -/
def resuffix (ρ : Suffix → Suffix) (name : String) : String :=
  match parse? name with
  | some (context, suffix) => generated context (ρ suffix)
  | none => name

theorem resuffix_generated (ρ : Suffix → Suffix) (context : Context) (suffix : Suffix) :
    resuffix ρ (generated context suffix) = generated context (ρ suffix) := by
  rw [resuffix, parse?_generated]

/-! ## How many suffixes there are -/

theorem exists_hexDigit_eq {c : Char} (h : isHexDigit c = true) :
    ∃ k : Fin 16, Json.hexDigit k = c := by
  have hlt : c.toNat < 128 := by
    simp only [isHexDigit, Bool.or_eq_true, Bool.and_eq_true, decide_eq_true_eq, Char.le_def,
      UInt32.le_iff_toNat_le] at h
    have h9 : '9'.val.toNat = 57 := rfl
    have hf : 'f'.val.toNat = 102 := rfl
    have hval : c.toNat = c.val.toNat := rfl
    omega
  have hascii : ∀ n < 128, isHexDigit (Char.ofNat n) = true →
      ∃ k : Fin 16, Json.hexDigit k = Char.ofNat n := by decide +kernel
  have hc := hascii c.toNat hlt
  rw [Char.ofNat_toNat] at hc
  exact hc h

theorem Suffix.length_digits (s : Suffix) : s.digits.length = 8 := by
  have hwell := s.wellFormed
  unfold isSuffix at hwell
  rw [Bool.and_eq_true, beq_iff_eq] at hwell
  exact hwell.1

theorem Suffix.isHexDigit_getElem (s : Suffix) (place : Fin 8) :
    isHexDigit (s.digits.get (place.cast s.length_digits.symm)) = true := by
  have hwell := s.wellFormed
  unfold isSuffix at hwell
  rw [Bool.and_eq_true, List.all_eq_true] at hwell
  exact hwell.2 _ (List.get_mem _ _)

/-- Different suffixes are no more than there are words of 32 bits. -/
theorem length_le_of_nodup {suffixes : List Suffix} (h : suffixes.Nodup) :
    suffixes.length ≤ 2 ^ 32 := by
  -- A suffix is known from the values of its eight digits.
  choose code hcode using fun (s : Suffix) place => exists_hexDigit_eq (s.isHexDigit_getElem place)
  have hinjective : Function.Injective code := by
    intro s t hst
    apply Suffix.ext
    apply List.ext_getElem
    · rw [s.length_digits, t.length_digits]
    · intro place hs ht
      have hplace : place < 8 := by rwa [s.length_digits] at hs
      have hs' := hcode s ⟨place, hplace⟩
      rw [hst] at hs'
      exact hs'.symm.trans (hcode t ⟨place, hplace⟩)
  have hcard := (h.map hinjective).length_le_card
  rw [List.length_map, Fintype.card_fun, Fintype.card_fin, Fintype.card_fin] at hcard
  exact hcard

/-- **Counted suffixes can be replaced by any that are different.** -/
theorem exists_replacement {suffixes : List Suffix} (h : suffixes.Nodup) :
    ∃ ρ : Suffix → Suffix, ∀ n suffix, suffixes[n]? = some suffix → ρ (.ofCounter n) = suffix := by
  have hlength := length_le_of_nodup h
  let counted : Fin suffixes.length → Suffix := fun n => .ofCounter n
  have hinjective : Function.Injective counted := by
    intro m n hmn
    have hmod := Suffix.ofCounter_eq_iff.mp hmn
    rw [Nat.mod_eq_of_lt (Nat.lt_of_lt_of_le m.isLt hlength),
      Nat.mod_eq_of_lt (Nat.lt_of_lt_of_le n.isLt hlength)] at hmod
    exact Fin.ext hmod
  refine ⟨Function.extend counted (fun n => suffixes[n]) id, ?_⟩
  intro n suffix hsuffix
  obtain ⟨hn, rfl⟩ := List.getElem?_eq_some_iff.mp hsuffix
  exact hinjective.extend_apply (fun n => suffixes[n]) id ⟨n, hn⟩

theorem Source.counting_zero (position : Nat) :
    Source.counting 0 position = .ofCounter position := by
  rw [Source.counting, Nat.zero_add, Suffix.ofCounter_eq_iff]
  exact Nat.mod_mod_of_dvd position (by decide)

end ToolShape.Name
