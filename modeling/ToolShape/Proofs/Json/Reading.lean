import ToolShape.Json.Printer
import ToolShape.Json.Reader

/-!
# Reading what was written

> **The printed text of a value without numbers is read back as that value, unless it nests too deep;
> then it is not read at all** (`Json.Tidy.read_pretty`).

The reader goes by fuel and by room. The fuel is for its own recursion and never runs out
(`Json.ReadsBack`); the room is the number of arrays and objects that it still enters, and what is
read is a matter of how deep the value nests and of nothing else (`Json.within`). Strings come back
character by character, whatever has been escaped (`Json.stringChars_escape`), and keys come back in
their order, since no key is set twice.

Numbers are left out: their text is the business of the double that they are.
-/

set_option autoImplicit false

namespace ToolShape.Json

/-! ## Strings -/

theorem hexValue?_hexDigit : ∀ n < 16, hexValue? (hexDigit n) = some n := by decide

theorem utf8Size_hexDigit : ∀ n < 16, (hexDigit n).utf8Size = 1 := by decide

theorem codeUnit_hex {a b : Nat} (ha : a < 16) (hb : b < 16) (rest : List Char) :
    codeUnit ('0' :: '0' :: hexDigit a :: hexDigit b :: rest) = .ok (a * 16 + b, rest) := by
  have hzero : hexValue? '0' = some 0 := by decide
  have hbytes : byteCount ['0', '0', hexDigit a, hexDigit b] = 4 := by
    simp only [byteCount, List.foldl_cons, List.foldl_nil, utf8Size_hexDigit a ha,
      utf8Size_hexDigit b hb]
    rfl
  unfold codeUnit
  simp [hbytes, hexValue?_hexDigit a ha, hexValue?_hexDigit b hb, hzero]

theorem codePoint_hex {a b : Nat} (ha : a < 16) (hb : b < 16) (rest : List Char) :
    codePoint ('0' :: '0' :: hexDigit a :: hexDigit b :: rest) =
      .ok (Char.ofNat (a * 16 + b), rest) := by
  have hlow : ¬ 0xDC00 ≤ a * 16 + b := by omega
  have hhigh : a * 16 + b < 0xD800 := by omega
  unfold codePoint
  rw [codeUnit_hex ha hb]
  simp [bind, Except.bind, hlow, hhigh, pure, Except.pure]

theorem stringChars_backslash {c : Char} {text after : List Char}
    (h : escapeSequence text = .ok (c, after)) (rounds : Nat) :
    stringChars (rounds + 1) ('\\' :: text) =
      (stringChars rounds after).map fun p => (c :: p.1, p.2) := by
  rw [stringChars, h]
  cases hafter : stringChars rounds after <;>
    simp [bind, Except.bind, pure, Except.pure, Except.map, hafter]

theorem stringChars_plain {c : Char} (hquote : c ≠ '"') (hbackslash : c ≠ '\\')
    (hcontrol : ¬ c.toNat < 32) (rounds : Nat) (text : List Char) :
    stringChars (rounds + 1) (c :: text) =
      (stringChars rounds text).map fun p => (c :: p.1, p.2) := by
  rw [stringChars, if_neg hcontrol]
  · cases htext : stringChars rounds text <;>
      simp [bind, Except.bind, pure, Except.pure, Except.map]
  · exact hquote
  · exact hbackslash

/-- A control character is written as a code unit. -/
theorem escapeSequence_control {c : Char} (h : c.toNat < 32) (rest : List Char) :
    escapeSequence ('u' :: '0' :: '0' :: hexDigit (c.toNat / 16) :: hexDigit (c.toNat % 16) ::
      rest) = .ok (c, rest) := by
  have hvalue : c.toNat / 16 * 16 + c.toNat % 16 = c.toNat := Nat.div_add_mod' _ _
  rw [escapeSequence, codePoint_hex (by omega) (by omega), hvalue, Char.ofNat_toNat]

/-- An escaped character is read in one round. -/
theorem stringChars_escape (c : Char) (rounds : Nat) (text : List Char) :
    stringChars (rounds + 1) (escape c ++ text) =
      (stringChars rounds text).map fun p => (c :: p.1, p.2) := by
  unfold escape
  -- The characters with an escape of their own, one by one; then the other ones.
  iterate 7
    split
    · next hc =>
      subst hc
      exact stringChars_backslash rfl rounds
  split
  · next hcontrol => exact stringChars_backslash (escapeSequence_control hcontrol text) rounds
  · next hquote hbackslash _ _ _ _ _ hcontrol =>
    exact stringChars_plain hquote hbackslash hcontrol rounds text

theorem stringChars_flatMap_escape (s rest : List Char) {rounds : Nat} (h : s.length < rounds) :
    stringChars rounds (s.flatMap escape ++ '"' :: rest) = .ok (s, rest) := by
  induction s generalizing rounds with
  | nil =>
    obtain ⟨rounds, rfl⟩ := Nat.exists_eq_add_one_of_ne_zero (Nat.ne_of_gt h)
    rfl
  | cons c s ih =>
    obtain ⟨rounds, rfl⟩ := Nat.exists_eq_add_one_of_ne_zero (Nat.ne_of_gt (Nat.zero_lt_of_lt h))
    rw [List.flatMap_cons, List.append_assoc, stringChars_escape, ih (Nat.lt_of_succ_lt_succ h)]
    rfl

theorem length_le_flatMap_escape (s : List Char) : s.length ≤ (s.flatMap escape).length := by
  have hpos : ∀ c, 1 ≤ (escape c).length := by
    intro c
    unfold escape
    repeat' split
    all_goals simp
  induction s with
  | nil => exact Nat.le_refl 0
  | cons c s ih =>
    have := hpos c
    simp only [List.flatMap_cons, List.length_cons, List.length_append]
    omega

/-- **A quoted string is read as it was.** -/
theorem stringBody_quoted (s : String) (rest : List Char) :
    stringBody (s.toList.flatMap escape ++ '"' :: rest) = .ok (s, rest) := by
  have hlength := length_le_flatMap_escape s.toList
  unfold stringBody
  rw [stringChars_flatMap_escape s.toList rest (by rw [List.length_append]; omega)]
  simp [bind, Except.bind, pure, Except.pure]

/-! ## Values -/

mutual

/-- The greatest number of arrays and objects on a way down from the top. -/
def nesting : Json → Nat
  | .arr items => nestingOfItems items + 1
  | .obj fields => nestingOfFields fields + 1
  | _ => 0

def nestingOfItems : List Json → Nat
  | [] => 0
  | v :: rest => max v.nesting (nestingOfItems rest)

def nestingOfFields : List (String × Json) → Nat
  | [] => 0
  | (_, v) :: rest => max v.nesting (nestingOfFields rest)

end

/-- Values without numbers, whose objects have pairwise different keys. -/
inductive Tidy : Json → Prop where
  | null : Tidy .null
  | bool (b : Bool) : Tidy (.bool b)
  | str (s : String) : Tidy (.str s)
  | arr {items : List Json} (all : ∀ v ∈ items, Tidy v) : Tidy (.arr items)
  | obj {fields : Fields} (nodup : fields.keys.Nodup) (all : ∀ p ∈ fields, Tidy p.2) :
    Tidy (.obj fields)

theorem skipSpace_of_not_isSpace {c : Char} (h : isSpace c = false) (text : List Char) :
    skipSpace (c :: text) = c :: text := by
  rw [skipSpace, List.dropWhile_cons, h]
  rfl

theorem skipSpace_indent (level : Nat) (text : List Char) :
    skipSpace ((indent level).toList ++ text) = skipSpace text := by
  have hblank : ∀ c ∈ (indent level).toList, isSpace c = true := by
    intro c hc
    rw [indent, String.toList_ofList, List.mem_cons, List.mem_replicate] at hc
    rcases hc with rfl | ⟨-, rfl⟩ <;> rfl
  exact List.dropWhile_append_of_pos hblank

theorem skipSpace_skipSpace (text : List Char) : skipSpace (skipSpace text) = skipSpace text := by
  induction text with
  | nil => rfl
  | cons c rest ih =>
    cases hc : isSpace c with
    | true => rw [show skipSpace (c :: rest) = skipSpace rest from List.dropWhile_cons_of_pos hc, ih]
    | false => rw [skipSpace_of_not_isSpace hc, skipSpace_of_not_isSpace hc]

theorem value_skipSpace (fuel room : Nat) (text : List Char) :
    value fuel room (skipSpace text) = value fuel room text := by
  cases fuel with
  | zero => rfl
  | succ fuel => rw [value, value, skipSpace_skipSpace]

variable {c : Char} {fuel room : Nat} {text after : List Char}

theorem value_null : value (fuel + 1) room ("null".toList ++ after) = .ok (.null, after) := rfl

theorem value_bool (b : Bool) :
    value (fuel + 1) room ((if b then "true" else "false").toList ++ after) =
      .ok (.bool b, after) := by
  cases b <;> rfl

theorem toList_quote_append (s : String) (after : List Char) :
    (quote s).toList ++ after = '"' :: (s.toList.flatMap escape ++ '"' :: after) := by
  rw [quote, String.toList_ofList, quoteChars]
  simp

theorem value_str (s : String) :
    value (fuel + 1) room ((quote s).toList ++ after) = .ok (.str s, after) := by
  rw [toList_quote_append, value, skipSpace_of_not_isSpace (by decide)]
  simp [stringBody_quoted, bind, Except.bind, pure, Except.pure]

theorem key_quote (s : String) :
    key ((quote s).toList ++ ':' :: after) = .ok (s, after) := by
  rw [toList_quote_append, key, stringBody_quoted]
  rfl

theorem value_bracket_zero : value (fuel + 1) 0 ('[' :: text) = .error .malformed := rfl

theorem value_brace_zero : value (fuel + 1) 0 ('\x7b' :: text) = .error .malformed := rfl

/-- A text that is the start of an item, and not the end of a list. -/
def Opens (text after : List Char) : Prop :=
  ∃ c rest, after = c :: rest ∧ text = c :: rest ∧ c ≠ ']'

theorem value_bracket (h : Opens (skipSpace text) after) :
    value (fuel + 1) (room + 1) ('[' :: text) =
      (elements fuel room after).map fun p => (.arr p.1, p.2) := by
  obtain ⟨c, rest, rfl, hskip, hc⟩ := h
  rw [value, skipSpace_of_not_isSpace (by decide)]
  simp only [hskip]
  rfl

theorem value_brace {k : String} (h : skipSpace text = (quote k).toList ++ after) :
    value (fuel + 1) (room + 1) ('\x7b' :: text) =
      (members fuel room ((quote k).toList ++ after)).map fun p => (.obj p.1, p.2) := by
  rw [toList_quote_append] at h ⊢
  rw [value, skipSpace_of_not_isSpace (by decide)]
  simp only [h]
  rfl

/-! ## Items and fields -/

variable {v : Json} {k : String} {behind : List Char} {fault : Fault}

theorem elements_of_error (hvalue : value fuel room text = .error fault) :
    elements (fuel + 1) room text = .error fault := by
  rw [elements, hvalue]
  rfl

theorem elements_last (hvalue : value fuel room text = .ok (v, behind))
    (hbehind : skipSpace behind = ']' :: after) :
    elements (fuel + 1) room text = .ok ([v], after) := by
  rw [elements, hvalue]
  dsimp only [bind, Except.bind]
  rw [hbehind]
  rfl

theorem elements_cons (hvalue : value fuel room text = .ok (v, ',' :: behind))
    (hbehind : Opens (skipSpace behind) after) :
    elements (fuel + 1) room text =
      (elements fuel room after).map fun p => (v :: p.1, p.2) := by
  obtain ⟨c, rest, rfl, hskip, hc⟩ := hbehind
  rw [elements, hvalue]
  dsimp only [bind, Except.bind]
  rw [skipSpace_of_not_isSpace (by decide)]
  simp only [hskip]
  split
  · next heq => exact absurd (List.head_eq_of_cons_eq heq) hc
  · cases elements fuel room (c :: rest) <;> rfl

theorem members_of_error (hkey : key text = .ok (k, after))
    (hvalue : value fuel room after = .error fault) :
    members (fuel + 1) room text = .error fault := by
  rw [members, hkey]
  dsimp only [bind, Except.bind]
  rw [hvalue]

theorem members_last (hkey : key text = .ok (k, after))
    (hvalue : value fuel room after = .ok (v, behind)) {rest : List Char}
    (hbehind : skipSpace behind = '\x7d' :: rest) :
    members (fuel + 1) room text = .ok ([(k, v)], rest) := by
  rw [members, hkey]
  dsimp only [bind, Except.bind]
  rw [hvalue]
  dsimp only
  rw [hbehind]
  rfl

theorem members_cons (hkey : key text = .ok (k, after))
    (hvalue : value fuel room after = .ok (v, ',' :: behind)) :
    members (fuel + 1) room text =
      (members fuel room (skipSpace behind)).map fun p => ((k, v) :: p.1, p.2) := by
  rw [members, hkey]
  dsimp only [bind, Except.bind]
  rw [hvalue]
  dsimp only
  rw [skipSpace_of_not_isSpace (by decide)]
  cases hmembers : members fuel room (skipSpace behind) <;>
    simp [hmembers, Except.map, pure, Except.pure]

/-! ## The characters of a value -/

theorem toList_prettyAt_arr (rest : List Json) (level : Nat) :
    (prettyAt (.arr (v :: rest)) level).toList =
      '[' :: ((indent (level + 1)).toList ++ ((prettyAt v (level + 1)).toList ++
        ((prettyItems rest (level + 1)).toList ++ ((indent level).toList ++ [']'])))) := by
  simp [prettyAt]

theorem toList_prettyAt_obj (rest : Fields) (level : Nat) :
    (prettyAt (.obj ((k, v) :: rest)) level).toList =
      '\x7b' :: ((indent (level + 1)).toList ++ ((quote k).toList ++ (':' :: ' ' ::
        ((prettyAt v (level + 1)).toList ++ ((prettyFields rest (level + 1)).toList ++
          ((indent level).toList ++ ['\x7d'])))))) := by
  simp [prettyAt]

theorem toList_prettyItems_cons (rest : List Json) (level : Nat) :
    (prettyItems (v :: rest) level).toList =
      ',' :: ((indent level).toList ++ ((prettyAt v level).toList ++
        (prettyItems rest level).toList)) := by
  simp [prettyItems]

theorem toList_prettyFields_cons (rest : Fields) (level : Nat) :
    (prettyFields ((k, v) :: rest) level).toList =
      ',' :: ((indent level).toList ++ ((quote k).toList ++ (':' :: ' ' ::
        ((prettyAt v level).toList ++ (prettyFields rest level).toList)))) := by
  simp [prettyFields]

/-! ## Whole values -/

/-- What is read if it does not nest deeper than there is room. -/
def within {α : Type} (nesting room : Nat) (a : α) : Except Fault α :=
  if nesting ≤ room then .ok a else .error .malformed

section

variable {α β : Type} {n m : Nat} {a : α}

theorem within_of_le (h : n ≤ room) : within n room a = .ok a := if_pos h

theorem within_of_not_le (h : ¬ n ≤ room) : within n room a = .error .malformed := if_neg h

theorem within_eq_ok_iff {b : α} : within n room a = .ok b ↔ n ≤ room ∧ a = b := by
  unfold within
  split <;> simp [*]

theorem within_succ_zero : within (n + 1) 0 a = .error .malformed := rfl

theorem within_succ_succ : within (n + 1) (room + 1) a = within n room a := by
  simp [within]

theorem within_max_of_le (h : n ≤ room) : within (max n m) room a = within m room a := by
  by_cases hm : m ≤ room
  · rw [within_of_le hm, within_of_le (Nat.max_le.mpr ⟨h, hm⟩)]
  · rw [within_of_not_le hm, within_of_not_le fun hboth => hm (Nat.max_le.mp hboth).2]

theorem within_max_of_not_le (h : ¬ n ≤ room) : within (max n m) room a = .error .malformed :=
  within_of_not_le fun hboth => h (Nat.max_le.mp hboth).1

theorem map_within (f : α → β) : (within n room a).map f = within n room (f a) := by
  unfold within
  split <;> rfl

end

/-- What is written of a value is read back if it does not nest deeper than there is room. -/
def ReadsBack (v : Json) : Prop :=
  ∀ (level fuel room : Nat) (after : List Char),
    2 * (prettyAt v level).toList.length ≤ fuel →
    value fuel room ((prettyAt v level).toList ++ after) = within v.nesting room (v, after)

/-- No value starts with white space or as a list ends. -/
theorem Tidy.exists_cons (h : Tidy v) (level : Nat) :
    ∃ c text, (prettyAt v level).toList = c :: text ∧ isSpace c = false ∧ c ≠ ']' := by
  cases h with
  | null => exact ⟨'n', "ull".toList, by rw [prettyAt]; rfl, rfl, by decide⟩
  | bool b =>
    rw [prettyAt]
    cases b with
    | true => exact ⟨'t', "rue".toList, rfl, rfl, by decide⟩
    | false => exact ⟨'f', "alse".toList, rfl, rfl, by decide⟩
  | str s =>
    have hquote := toList_quote_append s []
    rw [List.append_nil] at hquote
    rw [prettyAt]
    exact ⟨'"', _, hquote, rfl, by decide⟩
  | @arr items _ =>
    cases items with
    | nil => exact ⟨'[', [']'], by rw [prettyAt]; rfl, rfl, by decide⟩
    | cons v rest => exact ⟨'[', _, toList_prettyAt_arr rest level, rfl, by decide⟩
  | @obj fields _ _ =>
    cases fields with
    | nil => exact ⟨'\x7b', ['\x7d'], by rw [prettyAt]; rfl, rfl, by decide⟩
    | cons p rest =>
      obtain ⟨k, v⟩ := p
      exact ⟨'\x7b', _, toList_prettyAt_obj rest level, rfl, by decide⟩

theorem Tidy.opens (h : Tidy v) (level : Nat) (after : List Char) :
    Opens (skipSpace ((prettyAt v level).toList ++ after)) ((prettyAt v level).toList ++ after) := by
  obtain ⟨c, text, htext, hspace, hc⟩ := h.exists_cons level
  refine ⟨c, text ++ after, by rw [htext]; rfl, ?_, hc⟩
  rw [htext, List.cons_append, skipSpace_of_not_isSpace hspace]

/-- The items of a list are read back, from the first one to the closing bracket. -/
theorem elements_pretty {rest : List Json} (h : ∀ w ∈ v :: rest, Tidy w ∧ ReadsBack w)
    (level outer : Nat) (after : List Char)
    (hfuel : 2 * ((prettyAt v level).toList.length + (prettyItems rest level).toList.length) ≤
      fuel) :
    elements (fuel + 1) room ((prettyAt v level).toList ++ ((prettyItems rest level).toList ++
        ((indent outer).toList ++ ']' :: after))) =
      within (nestingOfItems (v :: rest)) room (v :: rest, after) := by
  induction rest generalizing v fuel with
  | nil =>
    have hvalue := (h v List.mem_cons_self).2 level fuel room
      ((prettyItems [] level).toList ++ ((indent outer).toList ++ ']' :: after)) (by omega)
    rw [nestingOfItems, nestingOfItems, Nat.max_zero]
    by_cases hv : v.nesting ≤ room
    · rw [within_of_le hv] at hvalue ⊢
      refine elements_last hvalue ?_
      rw [prettyItems, String.toList_empty, List.nil_append, skipSpace_indent,
        skipSpace_of_not_isSpace (by decide)]
    · rw [within_of_not_le hv] at hvalue ⊢
      exact elements_of_error hvalue
  | cons w rest ih =>
    obtain ⟨hfirst, hothers⟩ := List.forall_mem_cons.mp h
    rw [toList_prettyItems_cons, List.cons_append, List.append_assoc, List.append_assoc]
    rw [toList_prettyItems_cons, List.length_cons, List.length_append, List.length_append] at hfuel
    have hvalue := hfirst.2 level fuel room (',' :: ((indent level).toList ++
      ((prettyAt w level).toList ++ ((prettyItems rest level).toList ++
        ((indent outer).toList ++ ']' :: after))))) (by omega)
    rw [nestingOfItems]
    by_cases hv : v.nesting ≤ room
    · rw [within_of_le hv] at hvalue
      rw [within_max_of_le hv]
      -- What follows the comma is the next item, and not the end of the list.
      have hopens := (hothers w List.mem_cons_self).1.opens level
        ((prettyItems rest level).toList ++ ((indent outer).toList ++ ']' :: after))
      obtain ⟨fuel, rfl⟩ : ∃ lower, fuel = lower + 1 := ⟨fuel - 1, by omega⟩
      rw [elements_cons hvalue (by rw [skipSpace_indent]; exact hopens),
        ih hothers (by omega), map_within]
    · rw [within_of_not_le hv] at hvalue
      rw [within_max_of_not_le hv]
      exact elements_of_error hvalue

theorem value_space : value fuel room (' ' :: text) = value fuel room text := by
  rw [← value_skipSpace, show skipSpace (' ' :: text) = skipSpace text from rfl, value_skipSpace]

theorem skipSpace_quote (k : String) (after : List Char) :
    skipSpace ((quote k).toList ++ after) = (quote k).toList ++ after := by
  rw [toList_quote_append, skipSpace_of_not_isSpace (by decide)]

/-- The fields of an object are read back, from the first one to the closing brace. -/
theorem members_pretty {rest : Fields} (h : ∀ p ∈ (k, v) :: rest, ReadsBack p.2)
    (level outer : Nat) (after : List Char)
    (hfuel : 2 * ((prettyAt v level).toList.length + (prettyFields rest level).toList.length) ≤
      fuel) :
    members (fuel + 1) room ((quote k).toList ++ (':' :: ' ' :: ((prettyAt v level).toList ++
        ((prettyFields rest level).toList ++ ((indent outer).toList ++ '\x7d' :: after))))) =
      within (nestingOfFields ((k, v) :: rest)) room ((k, v) :: rest, after) := by
  induction rest generalizing k v fuel with
  | nil =>
    have hfirst : ReadsBack v := h (k, v) List.mem_cons_self
    have hvalue := hfirst level fuel room
      ((prettyFields [] level).toList ++ ((indent outer).toList ++ '\x7d' :: after)) (by omega)
    rw [← value_space] at hvalue
    rw [nestingOfFields, nestingOfFields, Nat.max_zero]
    by_cases hv : v.nesting ≤ room
    · rw [within_of_le hv] at hvalue ⊢
      refine members_last (key_quote k) hvalue ?_
      rw [prettyFields, String.toList_empty, List.nil_append, skipSpace_indent,
        skipSpace_of_not_isSpace (by decide)]
    · rw [within_of_not_le hv] at hvalue ⊢
      exact members_of_error (key_quote k) hvalue
  | cons p rest ih =>
    obtain ⟨other, w⟩ := p
    have hfirst : ReadsBack v := h (k, v) List.mem_cons_self
    have hothers : ∀ p ∈ (other, w) :: rest, ReadsBack p.2 :=
      fun p hp => h p (List.mem_cons_of_mem _ hp)
    rw [toList_prettyFields_cons] at hfuel ⊢
    simp only [List.length_cons, List.length_append] at hfuel
    simp only [List.cons_append, List.append_assoc]
    have hvalue := hfirst level fuel room (',' :: ((indent level).toList ++ ((quote other).toList ++
      (':' :: ' ' :: ((prettyAt w level).toList ++ ((prettyFields rest level).toList ++
        ((indent outer).toList ++ '\x7d' :: after))))))) (by omega)
    rw [← value_space] at hvalue
    rw [nestingOfFields]
    by_cases hv : v.nesting ≤ room
    · rw [within_of_le hv] at hvalue
      obtain ⟨fuel, rfl⟩ : ∃ lower, fuel = lower + 1 := ⟨fuel - 1, by omega⟩
      rw [within_max_of_le hv, members_cons (key_quote k) hvalue, skipSpace_indent, skipSpace_quote,
        ih hothers (by omega), map_within]
    · rw [within_of_not_le hv] at hvalue
      rw [within_max_of_not_le hv]
      exact members_of_error (key_quote k) hvalue

/-- **A value without numbers is read back.** -/
theorem Tidy.readsBack (h : Tidy v) : ReadsBack v := by
  induction h with
  | null =>
    intro level fuel room after hfuel
    rw [prettyAt] at hfuel ⊢
    obtain ⟨fuel, rfl⟩ : ∃ lower, fuel = lower + 1 := ⟨fuel - 1, by simp at hfuel; omega⟩
    exact value_null
  | bool b =>
    intro level fuel room after hfuel
    rw [prettyAt] at hfuel ⊢
    obtain ⟨fuel, rfl⟩ : ∃ lower, fuel = lower + 1 :=
      ⟨fuel - 1, by cases b <;> simp at hfuel <;> omega⟩
    exact value_bool b
  | str s =>
    intro level fuel room after hfuel
    rw [prettyAt] at hfuel ⊢
    obtain ⟨fuel, rfl⟩ : ∃ lower, fuel = lower + 1 := by
      have hquote := congrArg List.length (toList_quote_append s [])
      simp only [List.append_nil, List.length_cons] at hquote
      exact ⟨fuel - 1, by omega⟩
    exact value_str s
  | @arr items all ih =>
    intro level fuel room after hfuel
    rw [nesting]
    cases items with
    | nil =>
      rw [prettyAt] at hfuel ⊢
      obtain ⟨fuel, rfl⟩ : ∃ lower, fuel = lower + 1 := ⟨fuel - 1, by simp at hfuel; omega⟩
      cases room <;> rfl
    | cons v rest =>
      rw [toList_prettyAt_arr] at hfuel ⊢
      simp only [List.length_cons, List.length_append] at hfuel
      obtain ⟨fuel, rfl⟩ : ∃ lower, fuel = lower + 2 := ⟨fuel - 2, by omega⟩
      simp only [List.cons_append, List.append_assoc, List.nil_append]
      cases room with
      | zero =>
        rw [within_succ_zero]
        exact value_bracket_zero
      | succ room =>
        have hopens := (all v List.mem_cons_self).opens (level + 1)
          ((prettyItems rest (level + 1)).toList ++ ((indent level).toList ++ ']' :: after))
        rw [within_succ_succ, value_bracket (by rw [skipSpace_indent]; exact hopens),
          elements_pretty (fun w hw => ⟨all w hw, ih w hw⟩) _ _ _ (by omega), map_within]
  | @obj fields nodup all ih =>
    intro level fuel room after hfuel
    rw [nesting]
    cases fields with
    | nil =>
      rw [prettyAt] at hfuel ⊢
      obtain ⟨fuel, rfl⟩ : ∃ lower, fuel = lower + 1 := ⟨fuel - 1, by simp at hfuel; omega⟩
      cases room <;> rfl
    | cons p rest =>
      obtain ⟨k, v⟩ := p
      rw [toList_prettyAt_obj] at hfuel ⊢
      simp only [List.length_cons, List.length_append] at hfuel
      obtain ⟨fuel, rfl⟩ : ∃ lower, fuel = lower + 2 := ⟨fuel - 2, by omega⟩
      simp only [List.cons_append, List.append_assoc, List.nil_append]
      cases room with
      | zero =>
        rw [within_succ_zero]
        exact value_brace_zero
      | succ room =>
        rw [within_succ_succ, value_brace (by rw [skipSpace_indent, skipSpace_quote]),
          members_pretty ih _ _ _ (by omega), map_within]

/-! ## Documents -/

/-- Fields that are settled, and whose keys are new, are kept as they are. -/
theorem settleFields_eq_append {fields kept : Fields} (hsettled : ∀ p ∈ fields, p.2.settle = p.2)
    (hnodup : (kept ++ fields).keys.Nodup) : settleFields fields kept = kept ++ fields := by
  induction fields generalizing kept with
  | nil => rw [settleFields, List.append_nil]
  | cons p rest ih =>
    obtain ⟨k, v⟩ := p
    have hfirst : v.settle = v := hsettled (k, v) List.mem_cons_self
    have hnew : k ∉ kept.keys := by
      rw [Fields.keys, List.map_append, List.map_cons, List.nodup_append] at hnodup
      exact fun hmem => hnodup.2.2 k hmem k List.mem_cons_self rfl
    rw [settleFields, hfirst, Fields.put_of_not_mem hnew,
      ih (fun p hp => hsettled p (List.mem_cons_of_mem _ hp)) (by simpa using hnodup)]
    simp

theorem settleItems_eq_self {items : List Json} (h : ∀ v ∈ items, v.settle = v) :
    settleItems items = items := by
  induction items with
  | nil => rfl
  | cons v rest ih =>
    rw [List.forall_mem_cons] at h
    rw [settleItems, h.1, ih h.2]

theorem Tidy.settle_eq (h : Tidy v) : v.settle = v := by
  induction h with
  | null | bool | str => rw [settle] <;> simp
  | arr _ ih => rw [settle, settleItems_eq_self ih]
  | @obj fields nodup _ ih =>
    rw [settle, settleFields_eq_append ih (by rwa [List.nil_append]), List.nil_append]

theorem Tidy.readFirst_eq (h : Tidy v) {text : String} {after : List Char}
    (htext : text.toList = v.pretty.toList ++ after) :
    readFirst text = within v.nesting greatestNesting (v, after) := by
  unfold readFirst
  dsimp only
  rw [htext]
  refine h.readsBack 0 _ greatestNesting after ?_
  rw [List.length_append, pretty]
  omega

/-- **What is printed on its own is read back exactly when it does not nest too deep.** -/
theorem Tidy.read_pretty (h : Tidy v) :
    read (v.pretty ++ "\n") = within v.nesting greatestNesting v := by
  have htext : (v.pretty ++ "\n").toList = v.pretty.toList ++ ['\n'] := by
    rw [String.toList_append]
    rfl
  unfold read readRaw
  rw [h.readFirst_eq htext]
  unfold within
  split
  · show Except.ok v.settle = _
    rw [h.settle_eq]
  · rfl

end ToolShape.Json
