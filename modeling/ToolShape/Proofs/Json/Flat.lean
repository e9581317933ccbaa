import ToolShape.Json.Printer
import ToolShape.Proofs.Text.Lines

/-!
# JSON text without layout is flat

> **The compact text of a value holds no control character** (`Json.flat_compact`), whatever strings
> and keys the value holds.

In strings the control characters are escaped (`Json.flat_quote`), and all else that is written is
digits, signs and words. So a text into which values are put as JSON keeps its lines.
-/

set_option autoImplicit false

namespace ToolShape.Json

open Text (Flat flat_append_iff flat_ofList_iff)

/-- **Induction over JSON values**, with the hypotheses for lists about their members. -/
@[elab_as_elim]
theorem induct {motive : Json → Prop} (null : motive .null) (bool : ∀ b, motive (.bool b))
    (num : ∀ n, motive (.num n)) (str : ∀ s, motive (.str s))
    (arr : ∀ items : List Json, (∀ v ∈ items, motive v) → motive (.arr items))
    (obj : ∀ fields : Fields, (∀ p ∈ fields, motive p.2) → motive (.obj fields)) (v : Json) :
    motive v :=
  @Json.rec motive
    (fun items => ∀ v ∈ items, motive v)
    (fun fields => ∀ p ∈ fields, motive p.2)
    (fun p => motive p.2)
    null bool num str arr obj
    (by simp)
    (fun _ _ first others => by simpa using ⟨first, others⟩)
    (by simp)
    (fun p rest first others => List.forall_mem_cons.mpr ⟨first, others⟩)
    (fun _ _ h => h)
    v

/-! ## Strings -/

theorem visible_hexDigit : ∀ n < 16, 32 ≤ (hexDigit n).toNat := by decide

theorem flat_escape (c : Char) : Flat (String.ofList (escape c)) := by
  unfold escape
  -- The characters with an escape of their own, one by one; then the other ones.
  iterate 7
    split
    · decide
  split
  · next hcontrol =>
    rw [flat_ofList_iff]
    simp only [List.forall_mem_cons]
    refine ⟨by decide, by decide, by decide, by decide, ?_, ?_, by simp⟩
    · exact visible_hexDigit _ (by omega)
    · exact visible_hexDigit _ (by omega)
  · next hcontrol =>
    rw [flat_ofList_iff, List.forall_mem_singleton]
    exact Nat.not_lt.mp hcontrol

/-- **A quoted string is flat**, whatever it holds. -/
theorem flat_quote (s : String) : Flat (quote s) := by
  intro c hc
  rw [quote, String.toList_ofList, quoteChars, List.mem_append, List.mem_cons] at hc
  rcases hc with (rfl | hinside) | hlast
  · decide
  · obtain ⟨d, -, hmem⟩ := List.mem_flatMap.mp hinside
    exact flat_ofList_iff.mp (flat_escape d) c hmem
  · rw [List.mem_singleton.mp hlast]
    decide

/-! ## Numbers -/

theorem visible_of_mem_toDigits {n : Nat} {c : Char} (h : c ∈ Nat.toDigits 10 n) :
    32 ≤ c.toNat := by
  have hdigit := Nat.isDigit_of_mem_toDigits (by decide) (by decide) h
  simp only [Char.isDigit, Bool.and_eq_true, decide_eq_true_eq] at hdigit
  exact Nat.le_trans (by decide) (show '0'.toNat ≤ c.toNat from hdigit.1)

theorem flat_toString (n : Nat) : Flat (toString n) := by
  intro c hc
  rw [Nat.toString_eq_ofList_toDigits, String.toList_ofList] at hc
  exact visible_of_mem_toDigits hc

theorem flat_toString_int (n : Int) : Flat (toString n) := by
  rw [Int.toString_eq_repr]
  cases n with
  | ofNat n => exact flat_toString n
  | negSucc n => exact flat_append_iff.mpr ⟨by decide, flat_toString (n + 1)⟩

theorem flat_exponentText (e : Int) : Flat (exponentText e) := by
  unfold exponentText
  split <;> exact flat_append_iff.mpr ⟨by decide, flat_toString _⟩

/-- A decimal is written with its digits, zeros, a point and an exponent. -/
theorem flat_decimalText (layout : FloatLayout) (d : Double.Decimal) :
    Flat (decimalText layout d) := by
  have hdigits : ∀ c ∈ Nat.toDigits 10 d.digits, 32 ≤ c.toNat := fun _ => visible_of_mem_toDigits
  have hzeros : ∀ count, ∀ c ∈ List.replicate count '0', 32 ≤ c.toNat := by
    intro count c hc
    rw [List.eq_of_mem_replicate hc]
    decide
  unfold decimalText
  generalize Nat.toDigits 10 d.digits = digits at hdigits
  dsimp only
  split
  · refine flat_append_iff.mpr ⟨flat_ofList_iff.mpr ?_, flat_exponentText _⟩
    split
    · exact hdigits
    · exact hdigits
    · rw [List.forall_mem_cons] at hdigits
      exact List.forall_mem_cons.mpr ⟨hdigits.1, List.forall_mem_cons.mpr ⟨by decide, hdigits.2⟩⟩
  split
  · refine flat_append_iff.mpr ⟨flat_ofList_iff.mpr ?_, by decide⟩
    exact List.forall_mem_append.mpr ⟨hdigits, hzeros _⟩
  split
  · refine flat_ofList_iff.mpr (List.forall_mem_append.mpr ⟨?_, List.forall_mem_cons.mpr ?_⟩)
    · exact fun c hc => hdigits c (List.mem_of_mem_take hc)
    · exact ⟨by decide, fun c hc => hdigits c (List.mem_of_mem_drop hc)⟩
  · refine flat_ofList_iff.mpr (List.forall_mem_append.mpr ⟨?_, hdigits⟩)
    exact List.forall_mem_cons.mpr ⟨by decide, List.forall_mem_cons.mpr ⟨by decide, hzeros _⟩⟩

theorem flat_floatText (x : Double) : Flat (floatText x) := by
  have hmagnitude : Flat (if x.isZero then "0.0" else decimalText floatLayout x.shortest) := by
    split
    · decide
    · exact flat_decimalText floatLayout x.shortest
  unfold floatText
  dsimp only
  split
  · exact flat_append_iff.mpr ⟨by decide, hmagnitude⟩
  · exact hmagnitude

theorem flat_text (n : Number) : Flat n.text := by
  cases n with
  | int n => exact flat_toString_int n
  | float x => exact flat_floatText x

/-! ## Values -/

theorem flat_compactItems {items : List Json} (h : ∀ v ∈ items, Flat v.compact) :
    Flat (compactItems items) := by
  induction items with
  | nil => decide
  | cons v rest ih =>
    rw [List.forall_mem_cons] at h
    cases rest with
    | nil => exact h.1
    | cons w rest =>
      rw [compactItems]
      · exact flat_append_iff.mpr ⟨flat_append_iff.mpr ⟨h.1, by decide⟩, ih h.2⟩
      · simp

theorem flat_compactFields {fields : Fields} (h : ∀ p ∈ fields, Flat p.2.compact) :
    Flat (compactFields fields) := by
  induction fields with
  | nil => decide
  | cons p rest ih =>
    obtain ⟨k, v⟩ := p
    rw [List.forall_mem_cons] at h
    have hfirst : Flat (quote k ++ ":" ++ v.compact) :=
      flat_append_iff.mpr ⟨flat_append_iff.mpr ⟨flat_quote k, by decide⟩, h.1⟩
    cases rest with
    | nil => exact hfirst
    | cons q rest =>
      rw [compactFields]
      · exact flat_append_iff.mpr ⟨flat_append_iff.mpr ⟨hfirst, by decide⟩, ih h.2⟩
      · simp

/-- **The compact text of a value is flat.** -/
theorem flat_compact (v : Json) : Flat v.compact := by
  induction v using induct with
  | null => decide
  | bool b => cases b <;> decide
  | num n => exact flat_text n
  | str s => exact flat_quote s
  | arr items ih =>
    rw [compact]
    exact flat_append_iff.mpr ⟨flat_append_iff.mpr ⟨by decide, flat_compactItems ih⟩, by decide⟩
  | obj fields ih =>
    rw [compact]
    exact flat_append_iff.mpr ⟨flat_append_iff.mpr ⟨by decide, flat_compactFields ih⟩, by decide⟩

end ToolShape.Json
