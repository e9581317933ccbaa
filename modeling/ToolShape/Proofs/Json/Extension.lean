import ToolShape.Proofs.Json.Reading
import Mathlib.Data.List.Basic

/-!
# Texts that go on

What the reader makes of a text it makes of a longer one too, and leaves the new characters behind
what it left before; the exception is a text that ended too early (`Json.Extends`). This module shows
it for the parts of values: words, strings, numbers and keys.

Most readers stop at a character that is theirs. A number stops at the first one that is not, so what
comes behind it matters, and it must be something a number does not take: a closing brace is meant
here. A code unit looks four characters ahead and counts their bytes, and too few characters of
enough bytes are malformed either way (`Json.codeUnit_extends`).
-/

set_option autoImplicit false

namespace ToolShape.Json

variable {α β : Type} {more text : List Char}

/-! ## What is read from a longer text -/

/-- The outcome on a longer text follows from the one on a text, unless that one was too short: the
fault is the same, and so is what was read, with more characters left. -/
def Extends (more : List Char) (short long : Except Fault (α × List Char)) : Prop :=
  short ≠ .error .early → long = short.map fun p => (p.1, p.2 ++ more)

namespace Extends

theorem early {long : Except Fault (α × List Char)} : Extends more (.error .early) long :=
  fun h => absurd rfl h

theorem malformed : Extends more (.error .malformed : Except Fault (α × List Char))
    (.error .malformed) :=
  fun _ => rfl

theorem ok (a : α) (rest : List Char) : Extends more (.ok (a, rest)) (.ok (a, rest ++ more)) :=
  fun _ => rfl

/-- The three ways a text is read and a longer one with it. -/
theorem cases {short long : Except Fault (α × List Char)} (h : Extends more short long) :
    short = .error .early ∨ (short = .error .malformed ∧ long = .error .malformed) ∨
      ∃ a rest, short = .ok (a, rest) ∧ long = .ok (a, rest ++ more) := by
  rcases short with fault | ⟨a, rest⟩
  · cases fault with
    | early => exact Or.inl rfl
    | malformed => exact Or.inr (Or.inl ⟨rfl, h (by simp)⟩)
  · exact Or.inr (Or.inr ⟨a, rest, rfl, h (by simp)⟩)

/-- One reader after the other. -/
theorem bind {short long : Except Fault (α × List Char)}
    {next further : α × List Char → Except Fault (β × List Char)} (h : Extends more short long)
    (hnext : ∀ a rest, Extends more (next (a, rest)) (further (a, rest ++ more))) :
    Extends more (short >>= next) (long >>= further) := by
  obtain rfl | ⟨rfl, rfl⟩ | ⟨a, rest, rfl, rfl⟩ := h.cases
  · exact early
  · exact malformed
  · exact hnext a rest

end Extends

theorem skipSpace_append (h : skipSpace text ≠ []) :
    skipSpace (text ++ more) = skipSpace text ++ more := by
  unfold skipSpace at h ⊢
  rw [List.dropWhile_append, if_neg (by simpa using h)]

theorem skipSpace_append_cons {c : Char} {rest : List Char} (h : skipSpace text = c :: rest)
    (more : List Char) : skipSpace (text ++ more) = c :: (rest ++ more) := by
  rw [skipSpace_append (by simp [h]), h, List.cons_append]

theorem isSpace_of_skipSpace_eq_cons {c : Char} {rest : List Char}
    (h : skipSpace text = c :: rest) : isSpace c = false := by
  unfold skipSpace at h
  have hne : text.dropWhile isSpace ≠ [] := by
    rw [h]
    exact List.cons_ne_nil c rest
  have hhead := List.head_dropWhile_not isSpace hne
  simpa only [h, List.head_cons] using hhead

/-! ## Words and strings -/

theorem word_append (expected : List Char) (h : word expected text ≠ .error .early) :
    word expected (text ++ more) = (word expected text).map (· ++ more) := by
  induction expected generalizing text with
  | nil => rfl
  | cons e expected ih =>
    cases text with
    | nil => exact absurd rfl h
    | cons c rest =>
      rw [word] at h
      rw [List.cons_append, word, word]
      split
      · next hc =>
        rw [if_pos hc] at h
        exact ih h
      · rfl

theorem byteCount_cons (c : Char) (rest : List Char) :
    byteCount (c :: rest) = c.utf8Size + byteCount rest := by
  have hstart : ∀ (text : List Char) (start : Nat),
      text.foldl (fun count c => count + c.utf8Size) start = start + byteCount text := by
    intro text
    induction text with
    | nil => exact fun start => rfl
    | cons d others ih =>
      intro start
      rw [byteCount, List.foldl_cons, List.foldl_cons, ih, ih, Nat.zero_add, Nat.add_assoc]
  rw [byteCount, List.foldl_cons, hstart, Nat.zero_add]

theorem byteCount_append (text more : List Char) :
    byteCount (text ++ more) = byteCount text + byteCount more := by
  induction text with
  | nil => exact (Nat.zero_add _).symm
  | cons c rest ih => rw [List.cons_append, byteCount_cons, byteCount_cons, ih, Nat.add_assoc]

theorem utf8Size_of_hexValue? {c : Char} (h : hexValue? c ≠ none) : c.utf8Size = 1 := by
  have hle : c ≤ 'f' := by
    unfold hexValue? at h
    simp only [Bool.and_eq_true, decide_eq_true_eq] at h
    split at h
    · next hdigit => exact Char.le_trans hdigit.2 (by decide)
    split at h
    · next hlower => exact hlower.2
    split at h
    · next hupper => exact Char.le_trans hupper.2 (by decide)
    · exact absurd rfl h
  exact if_pos (UInt32.le_trans hle (by decide))

theorem byteCount_eq_length (h : ∀ c ∈ text, hexValue? c ≠ none) :
    byteCount text = text.length := by
  induction text with
  | nil => rfl
  | cons c rest ih =>
    rw [List.forall_mem_cons] at h
    rw [byteCount_cons, utf8Size_of_hexValue? h.1, ih h.2, List.length_cons, Nat.add_comm]

/-- Fewer than four characters that are four bytes are not all digits. -/
theorem exists_hexValue?_eq_none (hbytes : 4 ≤ byteCount text) (hlength : text.length < 4) :
    ∃ c ∈ text, hexValue? c = none := by
  by_contra hnot
  push Not at hnot
  rw [byteCount_eq_length hnot] at hbytes
  omega

theorem codeUnit_of_hexValue?_eq_none (hbytes : 4 ≤ byteCount (text.take 4)) {c : Char}
    (hc : c ∈ text.take 4) (hnone : hexValue? c = none) : codeUnit text = .error .malformed := by
  unfold codeUnit
  rw [if_neg (Nat.not_lt.mpr hbytes)]
  split
  · next a b c' d rest =>
    split
    · next ha hb hc' hd =>
      have hdigits : ∀ x ∈ [a, b, c', d], hexValue? x ≠ none := by
        simp [ha, hb, hc', hd]
      exact absurd hnone (hdigits c hc)
    · rfl
  · rfl

theorem codeUnit_extends (text : List Char) :
    Extends more (codeUnit text) (codeUnit (text ++ more)) := by
  intro hearly
  have hbytes : 4 ≤ byteCount (text.take 4) := by
    by_contra hfew
    exact hearly (if_pos (Nat.not_le.mp hfew))
  by_cases hlength : text.length < 4
  · -- A character that is more than a byte is no digit, whatever follows.
    have htake : text.take 4 = text := List.take_of_length_le (by omega)
    have htakeMore : (text ++ more).take 4 = text ++ more.take (4 - text.length) := by
      rw [List.take_append, htake]
    obtain ⟨c, hc, hnone⟩ := exists_hexValue?_eq_none (by rwa [htake] at hbytes) hlength
    have hshort : codeUnit text = .error .malformed :=
      codeUnit_of_hexValue?_eq_none hbytes (by rwa [htake]) hnone
    have hlong : codeUnit (text ++ more) = .error .malformed := by
      refine @codeUnit_of_hexValue?_eq_none (text ++ more) ?_ c ?_ hnone
      · rw [htake] at hbytes
        rw [htakeMore, byteCount_append]
        omega
      · rw [htakeMore]
        exact List.mem_append_left _ hc
    rw [hshort, hlong]
    rfl
  · obtain ⟨a, b, c, d, rest, rfl⟩ : ∃ a b c d rest, text = a :: b :: c :: d :: rest := by
      match text with
      | a :: b :: c :: d :: rest => exact ⟨a, b, c, d, rest, rfl⟩
      | [] | [_] | [_, _] | [_, _, _] => exact absurd (by simp) hlength
    have htake : (a :: b :: c :: d :: rest ++ more).take 4 = (a :: b :: c :: d :: rest).take 4 := rfl
    unfold codeUnit
    rw [htake, if_neg (Nat.not_lt.mpr hbytes), if_neg (Nat.not_lt.mpr hbytes)]
    dsimp only [List.cons_append]
    split <;> rfl

theorem codePoint_extends (text : List Char) :
    Extends more (codePoint text) (codePoint (text ++ more)) := by
  unfold codePoint
  refine (codeUnit_extends text).bind fun high rest => ?_
  dsimp only
  split
  · exact .malformed
  split
  · exact .ok _ _
  -- The second half of a pair, or no backslash, or one with another letter behind it.
  rcases rest with _ | ⟨c, _ | ⟨d, rest⟩⟩
  · exact .early
  · by_cases hslash : c = '\\'
    · subst hslash
      exact .early
    · simp only [List.cons_append, List.nil_append]
      split <;> split <;> first | exact .malformed | simp_all
  · by_cases hpair : c = '\\' ∧ d = 'u'
    · obtain ⟨rfl, rfl⟩ := hpair
      refine (codeUnit_extends rest).bind fun low rest => ?_
      dsimp only
      split
      · exact .malformed
      · exact .ok _ _
    · simp only [List.cons_append]
      split <;> split <;> first | exact .malformed | simp_all

theorem escapeSequence_extends (text : List Char) :
    Extends more (escapeSequence text) (escapeSequence (text ++ more)) := by
  unfold escapeSequence
  split
  · exact .early
  iterate 8
    · exact .ok _ _
  · next rest => exact codePoint_extends rest
  · rw [List.cons_append]
    split <;> first | exact .malformed | simp_all

theorem stringChars_extends {rounds rounds' : Nat} (h : rounds ≤ rounds') (text : List Char) :
    Extends more (stringChars rounds text) (stringChars rounds' (text ++ more)) := by
  induction rounds generalizing rounds' text with
  | zero => exact .early
  | succ rounds ih =>
    obtain ⟨rounds', rfl⟩ : ∃ n, rounds' = n + 1 := ⟨rounds' - 1, by omega⟩
    have hrounds : rounds ≤ rounds' := Nat.le_of_succ_le_succ h
    cases text with
    | nil => exact .early
    | cons c rest =>
      by_cases hquote : c = '"'
      · subst hquote
        exact .ok [] rest
      by_cases hslash : c = '\\'
      · subst hslash
        refine (escapeSequence_extends rest).bind fun d rest => ?_
        exact (ih hrounds rest).bind fun s rest => .ok (d :: s) rest
      · rw [List.cons_append, stringChars, stringChars]
        · split
          · exact .malformed
          · exact (ih hrounds rest).bind fun s rest => .ok (c :: s) rest
        all_goals simp [hquote, hslash]

theorem stringBody_extends (text : List Char) :
    Extends more (stringBody text) (stringBody (text ++ more)) := by
  unfold stringBody
  refine (stringChars_extends ?_ text).bind fun s rest => .ok (String.ofList s) rest
  rw [List.length_append]
  omega

/-! ## Numbers

From here on a brace follows. -/

variable {after : List Char}

theorem dropWhile_isDigit_append (text : List Char) :
    (text ++ '\x7d' :: after).dropWhile isDigit = text.dropWhile isDigit ++ '\x7d' :: after := by
  rw [List.dropWhile_append]
  split
  · next h => rw [List.isEmpty_iff.mp h]; rfl
  · rfl

theorem takeWhile_isDigit_append (text : List Char) :
    (text ++ '\x7d' :: after).takeWhile isDigit = text.takeWhile isDigit := by
  induction text with
  | nil => rfl
  | cons c rest ih => rw [List.cons_append, List.takeWhile_cons, List.takeWhile_cons, ih]

theorem gather_append (significand : Nat) (text : List Char) :
    gather significand (text ++ '\x7d' :: after) =
      ((gather significand text).1, (gather significand text).2.1,
        (gather significand text).2.2 ++ '\x7d' :: after) := by
  induction text generalizing significand with
  | nil => rfl
  | cons c rest ih =>
    rw [List.cons_append, gather, gather]
    split
    · rw [ih]
    · rfl

variable (negative : Bool) (significand : Nat) (exponent : Int)

theorem double_extends (rest : List Char) :
    Extends more (double negative significand exponent rest)
      (double negative significand exponent (rest ++ more)) := by
  unfold double
  split
  · exact .ok _ _
  · exact .malformed

/-- Reads what follows the sign of an exponent. -/
def exponentDigits (raises : Bool) (text : List Char) : Except Fault (Number × List Char) :=
  match text with
  | [] => .error .early
  | c :: _ =>
    if !isDigit c then .error .malformed
    else
      let value := (text.takeWhile isDigit).foldl (fun n d => n * 10 + digitValue d) 0
      let rest := text.dropWhile isDigit
      if greatestExponent < value then
        if significand != 0 && raises then .error .malformed
        else .ok (.float (Double.zero negative), rest)
      else double negative significand (if raises then exponent + value else exponent - value) rest

theorem exponentPart_unsigned {c : Char} (hplus : c ≠ '+') (hminus : c ≠ '-') (rest : List Char) :
    exponentPart negative significand exponent (c :: rest) =
      exponentDigits negative significand exponent true (c :: rest) := by
  unfold exponentPart
  split
  next sign tail heq =>
    split at heq
    · exact absurd (List.head_eq_of_cons_eq (by assumption)) hplus
    · exact absurd (List.head_eq_of_cons_eq (by assumption)) hminus
    · cases heq
      rfl

theorem exponentDigits_extends (raises : Bool) (text : List Char) :
    Extends ('\x7d' :: after) (exponentDigits negative significand exponent raises text)
      (exponentDigits negative significand exponent raises (text ++ '\x7d' :: after)) := by
  cases text with
  | nil => exact .early
  | cons c rest =>
    unfold exponentDigits
    rw [takeWhile_isDigit_append, dropWhile_isDigit_append]
    dsimp only [List.cons_append]
    split
    · exact .malformed
    split
    · split
      · exact .malformed
      · exact .ok _ _
    · exact double_extends negative significand _ _

theorem exponentPart_extends (text : List Char) :
    Extends ('\x7d' :: after) (exponentPart negative significand exponent text)
      (exponentPart negative significand exponent (text ++ '\x7d' :: after)) := by
  cases text with
  | nil => exact .early
  | cons c rest =>
    by_cases hplus : c = '+'
    · subst hplus
      exact exponentDigits_extends negative significand exponent true rest
    by_cases hminus : c = '-'
    · subst hminus
      exact exponentDigits_extends negative significand exponent false rest
    · rw [List.cons_append, exponentPart_unsigned negative significand exponent hplus hminus,
        exponentPart_unsigned negative significand exponent hplus hminus, ← List.cons_append]
      exact exponentDigits_extends negative significand exponent true (c :: rest)

theorem finishDouble_of_head (h : ∀ c ∈ text.head?, c ∉ ['e', 'E']) :
    finishDouble negative significand exponent text =
      double negative significand exponent text := by
  unfold finishDouble
  split
  · exact absurd (h 'e' rfl) (by decide)
  · exact absurd (h 'E' rfl) (by decide)
  · rfl

theorem finishDouble_extends (text : List Char) :
    Extends ('\x7d' :: after) (finishDouble negative significand exponent text)
      (finishDouble negative significand exponent (text ++ '\x7d' :: after)) := by
  have hdouble := @double_extends ('\x7d' :: after) negative significand exponent text
  cases text with
  | nil => exact hdouble
  | cons c rest =>
    by_cases hlower : c = 'e'
    · subst hlower
      exact exponentPart_extends negative significand exponent rest
    by_cases hupper : c = 'E'
    · subst hupper
      exact exponentPart_extends negative significand exponent rest
    · have hhead : ∀ d ∈ (c :: rest).head?, d ∉ ['e', 'E'] := by
        intro d hd
        rw [← Option.some.inj hd]
        simp [hlower, hupper]
      rw [finishDouble_of_head negative significand exponent hhead,
        @finishDouble_of_head (c :: rest ++ _) negative significand exponent hhead]
      exact hdouble

theorem fraction_extends (text : List Char) :
    Extends ('\x7d' :: after) (fraction negative significand exponent text)
      (fraction negative significand exponent (text ++ '\x7d' :: after)) := by
  unfold fraction
  rw [gather_append]
  cases text with
  | nil => exact .early
  | cons c rest =>
    dsimp only [List.cons_append]
    split
    · exact .malformed
    · rw [dropWhile_isDigit_append]
      exact finishDouble_extends negative _ _ _

/-- Ends a number without a point or an exponent. -/
def finishWhole (dropped : Nat) (text : List Char) : Except Fault (Number × List Char) :=
  if dropped != 0 then double negative significand dropped text
  else if !negative then .ok (.int significand, text)
  else if 0 < significand && significand ≤ Nat.pow 2 63 then .ok (.int (-(significand : Int)), text)
  else double true significand 0 text

theorem finishNumber_of_head (dropped : Nat) (h : ∀ c ∈ text.head?, c ∉ ['.', 'e', 'E']) :
    finishNumber negative significand dropped text =
      finishWhole negative significand dropped text := by
  unfold finishNumber
  split
  · exact absurd (h '.' rfl) (by decide)
  · exact absurd (h 'e' rfl) (by decide)
  · exact absurd (h 'E' rfl) (by decide)
  · rfl

theorem finishWhole_extends (dropped : Nat) (text : List Char) :
    Extends more (finishWhole negative significand dropped text)
      (finishWhole negative significand dropped (text ++ more)) := by
  unfold finishWhole
  split
  · exact double_extends negative significand _ _
  split
  · exact .ok _ _
  split
  · exact .ok _ _
  · exact double_extends true significand _ _

theorem finishNumber_extends (dropped : Nat) (text : List Char) :
    Extends ('\x7d' :: after) (finishNumber negative significand dropped text)
      (finishNumber negative significand dropped (text ++ '\x7d' :: after)) := by
  have hwhole := @finishWhole_extends ('\x7d' :: after) negative significand dropped text
  cases text with
  | nil => exact hwhole
  | cons c rest =>
    by_cases hpoint : c = '.'
    · subst hpoint
      exact fraction_extends negative significand dropped rest
    by_cases hlower : c = 'e'
    · subst hlower
      exact exponentPart_extends negative significand dropped rest
    by_cases hupper : c = 'E'
    · subst hupper
      exact exponentPart_extends negative significand dropped rest
    · have hhead : ∀ d ∈ (c :: rest).head?, d ∉ ['.', 'e', 'E'] := by
        intro d hd
        rw [← Option.some.inj hd]
        simp [hpoint, hlower, hupper]
      rw [finishNumber_of_head negative significand dropped hhead,
        @finishNumber_of_head (c :: rest ++ _) negative significand dropped hhead]
      exact hwhole

theorem number_zero_cons (c : Char) (rest : List Char) :
    number negative ('0' :: c :: rest) =
      if isDigit c then .error .malformed else finishNumber negative 0 0 (c :: rest) := rfl

theorem number_extends (text : List Char) :
    Extends ('\x7d' :: after) (number negative text) (number negative (text ++ '\x7d' :: after)) := by
  rcases text with _ | ⟨c, rest⟩
  · exact .early
  by_cases hzero : c = '0'
  · subst hzero
    cases rest with
    | nil => exact finishNumber_extends negative 0 0 []
    | cons d rest =>
      rw [List.cons_append, List.cons_append, number_zero_cons, number_zero_cons]
      split
      · exact .malformed
      · exact finishNumber_extends negative 0 0 (d :: rest)
  · rw [List.cons_append, number, number]
    · rw [← List.cons_append, gather_append]
      dsimp only
      split
      · exact .malformed
      · rw [takeWhile_isDigit_append, dropWhile_isDigit_append]
        exact finishNumber_extends negative _ _ _
    all_goals simp [hzero]

/-! ## Keys -/

theorem key_extends (text : List Char) :
    Extends more (key text) (key (text ++ more)) := by
  rcases text with _ | ⟨c, rest⟩
  · exact .early
  by_cases hquote : c = '"'
  · subst hquote
    refine (stringBody_extends rest).bind fun k rest => ?_
    dsimp only
    cases hskip : skipSpace rest with
    | nil => exact .early
    | cons d tail =>
      rw [skipSpace_append (by simp [hskip]), hskip]
      by_cases hcolon : d = ':'
      · subst hcolon
        exact .ok k tail
      · simp only [List.cons_append]
        split <;> split <;> first | exact .malformed | simp_all
  · rw [List.cons_append, key, key]
    · exact .malformed
    all_goals simp [hquote]

end ToolShape.Json
