import ToolShape.Name.Generated
import Mathlib.Algebra.Group.Nat.Defs
import Mathlib.Data.List.Nodup

/-!
# Generated names, and what tells them apart

A generated name is read back into its context and its suffix (`Name.parse?_generated`), whatever
the context holds: a suffix has no underscore, so the last one is the one in front of it. Two names
therefore differ as soon as their suffixes do.

Suffixes differ as long as a source repeats none (`Name.Source.Fresh`). A counter repeats none in
`2 ^ 32` draws, wherever it starts, and also across its own end at `2 ^ 64`
(`Name.Source.fresh_counting`): that is a multiple of `2 ^ 32`, so the low bits go on counting.
-/

set_option autoImplicit false

namespace ToolShape.Name

/-! ## Reading a name back -/

theorem after?_append (start text : List Char) : after? start (start ++ text) = some text := by
  induction start with
  | nil => rfl
  | cons c rest ih => simp [after?, ih]

theorem splitLast?_eq_none {text : List Char} (h : '_' ∉ text) : splitLast? text = none := by
  induction text with
  | nil => rfl
  | cons c rest ih =>
    have hc : ¬ c = '_' := fun e => h (e ▸ List.mem_cons_self)
    rw [splitLast?, ih fun hrest => h (List.mem_cons_of_mem c hrest)]
    exact if_neg hc

/-- The text after the last underscore is found whatever stands before it. -/
theorem splitLast?_append (before : List Char) {behind : List Char} (h : '_' ∉ behind) :
    splitLast? (before ++ '_' :: behind) = some (before, behind) := by
  induction before with
  | nil => simp [splitLast?, splitLast?_eq_none h]
  | cons c rest ih => rw [List.cons_append, splitLast?, ih]

theorem Suffix.underscore_not_mem (s : Suffix) : '_' ∉ s.digits := by
  intro h
  have hwell := s.wellFormed
  unfold isSuffix at hwell
  rw [Bool.and_eq_true, List.all_eq_true] at hwell
  exact absurd (hwell.2 '_' h) (by decide)

/-- **A generated name is read back into its parts.** -/
theorem parse?_generated (context : Context) (suffix : Suffix) :
    parse? (generated context suffix) = some (context, suffix) := by
  have htext : (generated context suffix).toList =
      stem.toList ++ (context.text.toList ++ '_' :: suffix.digits) := by
    simp [generated, Suffix.text]
  rw [parse?, htext, after?_append, Option.bind_eq_bind, Option.bind_some,
    splitLast?_append _ suffix.underscore_not_mem, Option.bind_eq_bind, Option.bind_some]
  simp [Suffix.ofChars?_digits]

/-- The suffix of a generated name; any other name has none. -/
def suffix? (name : String) : Option Suffix := (parse? name).map Prod.snd

@[simp] theorem suffix?_generated (context : Context) (suffix : Suffix) :
    suffix? (generated context suffix) = some suffix := by
  rw [suffix?, parse?_generated]
  rfl

@[simp] theorem context?_generated (context : Context) (suffix : Suffix) :
    context? (generated context suffix) = some context := by
  rw [context?, parse?_generated]
  rfl

/-! ## Suffixes of counters -/

theorem hexDigit_inj {a b : Nat} (ha : a < 16) (hb : b < 16)
    (h : Json.hexDigit a = Json.hexDigit b) : a = b :=
  (by decide : ∀ a < 16, ∀ b < 16, Json.hexDigit a = Json.hexDigit b → a = b) a ha b hb h

/-- Numbers with the same low digits agree up to there. -/
theorem mod_pow_eq_of_digits {a b count : Nat}
    (h : ∀ place < count, a / 16 ^ place % 16 = b / 16 ^ place % 16) :
    a % 16 ^ count = b % 16 ^ count := by
  induction count with
  | zero => simp [Nat.mod_one]
  | succ count ih =>
    rw [Nat.mod_pow_succ, Nat.mod_pow_succ, h count (Nat.lt_succ_self count),
      ih fun place hplace => h place (Nat.lt_succ_of_lt hplace)]

/-- A word of 32 bits is known from its digits. -/
theorem Suffix.ofWord_inj {a b : Nat} (ha : a < 2 ^ 32) (hb : b < 2 ^ 32)
    (h : ofWord a = ofWord b) : a = b := by
  have hdigit : ∀ place < 8, a / 16 ^ place % 16 = b / 16 ^ place % 16 := by
    intro place hplace
    have hdigits := congrArg digits h
    unfold ofWord at hdigits
    dsimp only at hdigits
    have hmem : place ∈ [7, 6, 5, 4, 3, 2, 1, 0] := by
      simp only [List.mem_cons, List.not_mem_nil]
      omega
    exact hexDigit_inj (Nat.mod_lt _ (by decide)) (Nat.mod_lt _ (by decide))
      (List.map_inj_left.mp hdigits place hmem)
  have hmod : a % 2 ^ 32 = b % 2 ^ 32 := mod_pow_eq_of_digits hdigit
  rwa [Nat.mod_eq_of_lt ha, Nat.mod_eq_of_lt hb] at hmod

theorem Suffix.ofCounter_eq_iff {a b : Nat} :
    ofCounter a = ofCounter b ↔ a % 2 ^ 32 = b % 2 ^ 32 := by
  constructor
  · exact ofWord_inj (Nat.mod_lt _ (by decide)) (Nat.mod_lt _ (by decide))
  · exact fun h => congrArg ofWord h

/-! ## Sources that repeat nothing -/

namespace Source

/-- No suffix comes twice among so many draws from a position on. -/
def Fresh (source : Source) (position count : Nat) : Prop :=
  ((List.range' position count).map source).Nodup

theorem fresh_iff {source : Source} {position count : Nat} :
    source.Fresh position count ↔
      ∀ i < count, ∀ j < count, source (position + i) = source (position + j) → i = j := by
  unfold Fresh
  rw [List.nodup_map_iff_inj_on List.nodup_range']
  simp only [List.mem_range'_1]
  constructor
  · intro h i hi j hj heq
    have := h (position + i) (by omega) (position + j) (by omega) heq
    omega
  · intro h x hx y hy heq
    have := h (x - position) (by omega) (y - position) (by omega)
      (by rwa [Nat.add_sub_cancel' hx.1, Nat.add_sub_cancel' hy.1])
    omega

theorem Fresh.left {source : Source} {position a b : Nat} (h : source.Fresh position (a + b)) :
    source.Fresh position a := by
  rw [fresh_iff] at h ⊢
  exact fun i hi j hj => h i (by omega) j (by omega)

theorem Fresh.right {source : Source} {position a b : Nat} (h : source.Fresh position (a + b)) :
    source.Fresh (position + a) b := by
  rw [fresh_iff] at h ⊢
  intro i hi j hj heq
  rw [Nat.add_assoc, Nat.add_assoc] at heq
  have := h (a + i) (by omega) (a + j) (by omega) heq
  omega

/-- **A counter repeats nothing in `2 ^ 32` draws.** -/
theorem fresh_counting (start position : Nat) {count : Nat} (h : count ≤ 2 ^ 32) :
    (counting start).Fresh position count := by
  rw [fresh_iff]
  intro i hi j hj heq
  -- The end of the counter is a multiple of `2 ^ 32`, so it does not show in the low bits.
  have hmod := Suffix.ofCounter_eq_iff.mp heq
  rw [Nat.mod_mod_of_dvd _ (by decide), Nat.mod_mod_of_dvd _ (by decide)] at hmod
  omega

end Source

end ToolShape.Name
