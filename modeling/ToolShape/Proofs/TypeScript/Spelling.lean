import ToolShape.Proofs.Json.Reading
import ToolShape.Proofs.Name.Generated
import ToolShape.Proofs.TypeScript.Identifier

/-!
# Types are read back

A type is a row of terms with bars between them, and it can be read again: a quotation mark begins
a value, `Array<` a list, `Record<` the mapping, and any other word is a keyword or the name of a
record. So

> **two types are spelled alike exactly when they have the same terms**
> (`Shape.typescript_eq_iff`),

and terms forget nothing but what TypeScript has no words for: dates and times are strings, integers
are numbers, a literal is the row of its values, and a record is its name.

The values are printed as JSON strings and read as such (`Json.stringBody_quoted`), whatever they
hold, so a bar or a bracket in a value is never taken for one of the type. A name must not hold what
ends a word; no identifier does (`isWord_of_identifier`).
-/

set_option autoImplicit false

namespace ToolShape

namespace TypeScript

/-! ## Terms -/

/-- The types that are words of the language. -/
inductive Keyword where
  | unknown | string | number | boolean | null
deriving DecidableEq

namespace Keyword

def text : Keyword → String
  | unknown => "unknown"
  | string => "string"
  | number => "number"
  | boolean => "boolean"
  | null => "null"

def all : List Keyword := [unknown, string, number, boolean, null]

end Keyword

/-- What stands between two bars of a type. -/
inductive Term where
  | keyword (word : Keyword)
  | value (text : String)
  | list (items : List Term)
  | mapping
  | record (name : String)

mutual

/-- The spelling of a term. -/
def Term.text : Term → String
  | .keyword word => word.text
  | .value text => Json.quote text
  | .list items => "Array<" ++ " | ".intercalate (Term.textOfAll items) ++ ">"
  | .mapping => "Record<string, unknown>"
  | .record name => name

def Term.textOfAll : List Term → List String
  | [] => []
  | t :: rest => t.text :: Term.textOfAll rest

end

/-- The spelling of a row of terms. -/
def spell (terms : List Term) : String := " | ".intercalate (terms.map Term.text)

theorem Term.textOfAll_eq_map (terms : List Term) : textOfAll terms = terms.map text := by
  induction terms with
  | nil => rfl
  | cons t rest ih => rw [textOfAll, ih, List.map_cons]

theorem Term.text_list (items : List Term) : (list items).text = "Array<" ++ spell items ++ ">" := by
  rw [text, textOfAll_eq_map, spell]

theorem spell_singleton (t : Term) : spell [t] = t.text := by simp [spell]

theorem spell_cons {terms : List Term} (t : Term) (h : terms ≠ []) :
    spell (t :: terms) = t.text ++ " | " ++ spell terms := by
  cases terms with
  | nil => exact absurd rfl h
  | cons next rest => rw [spell, List.map_cons, List.map_cons, String.intercalate_cons_cons]; rfl

theorem spell_append {terms others : List Term} (h : terms ≠ []) (hothers : others ≠ []) :
    spell (terms ++ others) = spell terms ++ " | " ++ spell others := by
  induction terms with
  | nil => exact absurd rfl h
  | cons t rest ih =>
    rw [List.cons_append, spell_cons t (by simp [hothers])]
    cases rest with
    | nil => rw [spell_singleton, List.nil_append]
    | cons next rest =>
      rw [ih (List.cons_ne_nil next rest), spell_cons t (List.cons_ne_nil next rest)]
      simp only [String.append_assoc]

/-! ## Words -/

/-- Whether a word of a type goes on with a character. -/
def isInside (c : Char) : Bool := c ≠ ' ' && c ≠ '>'

/-- A name that reads as a word of its own: it starts like a generated one, and nothing in it ends
a word. -/
def IsWord (name : String) : Prop :=
  Name.stem.toList <+: name.toList ∧ ∀ c ∈ name.toList, isInside c = true

instance (name : String) : Decidable (IsWord name) :=
  @instDecidableAnd _ _ _ (List.decidableBAll (fun c : Char => isInside c = true) name.toList)

/-- **Identifiers are words**, in every alphabet that has no bracket. -/
theorem isWord_of_identifier {letters : Alphabet} (hbracket : letters.part '>' = false)
    {name : String} (h : letters.Identifier name) (hstem : Name.stem.toList <+: name.toList) :
    IsWord name := by
  refine ⟨hstem, ?_⟩
  intro c hc
  have hpart : letters.part c = true := by
    obtain ⟨d, rest, hname, hfirst, hrest⟩ := h
    rw [hname] at hc
    rcases List.mem_cons.mp hc with rfl | hmem
    · exact letters.part_of_first _ hfirst
    · exact hrest c hmem
  have hblank : letters.part ' ' = false := by
    have := List.all_eq_true.mp letters.not_part ' ' (by decide)
    rwa [Bool.not_eq_true'] at this
  rw [isInside, Bool.and_eq_true, decide_eq_true_eq, decide_eq_true_eq]
  constructor
  · rintro rfl
    rw [hblank] at hpart
    cases hpart
  · rintro rfl
    rw [hbracket] at hpart
    cases hpart

theorem IsWord.exists_cons {name : String} (h : IsWord name) :
    ∃ rest, name.toList = 'G' :: rest := by
  obtain ⟨rest, hrest⟩ := h.1
  exact ⟨"enerated_".toList ++ rest, hrest.symm⟩

/-- The term of a word. -/
def ofWord (text : String) : Term :=
  match Keyword.all.find? (·.text == text) with
  | some word => .keyword word
  | none => .record text

theorem ofWord_text (word : Keyword) : ofWord word.text = .keyword word := by
  cases word <;> rfl

theorem ofWord_of_isWord {name : String} (h : IsWord name) : ofWord name = .record name := by
  obtain ⟨rest, hname⟩ := h.exists_cons
  have hnone : Keyword.all.find? (·.text == name) = none := by
    rw [List.find?_eq_none]
    intro word _ heq
    -- No keyword begins like a generated name.
    have htext : word.text.toList = 'G' :: rest := by rw [beq_iff_eq.mp heq, hname]
    cases word <;> cases htext
  rw [ofWord, hnone]

/-! ## Reading -/

mutual

/-- Reads a term. -/
def readTerm? : Nat → List Char → Option (Term × List Char)
  | 0, _ => none
  | _ + 1, '"' :: rest => (Json.stringBody rest).toOption.map fun (text, rest) => (.value text, rest)
  | fuel + 1, text =>
    match Name.after? "Array<".toList text with
    | some inside => do
      let (items, rest) ← readTerms? fuel inside
      let rest ← Name.after? ['>'] rest
      some (.list items, rest)
    | none =>
      match Name.after? "Record<string, unknown>".toList text with
      | some rest => some (.mapping, rest)
      | none => some (ofWord (String.ofList (text.takeWhile isInside)), text.dropWhile isInside)

/-- Reads terms for as long as a bar follows. -/
def readTerms? : Nat → List Char → Option (List Term × List Char)
  | 0, _ => none
  | fuel + 1, text => do
    let (t, rest) ← readTerm? fuel text
    match Name.after? " | ".toList rest with
    | some rest =>
      let (terms, rest) ← readTerms? fuel rest
      some (t :: terms, rest)
    | none => some ([t], rest)

end

/-- Reads a type, which is all of a text. -/
def readType? (text : String) : Option (List Term) :=
  match readTerms? (text.length + 1) text.toList with
  | some (terms, []) => some terms
  | _ => none

/-- Terms that are read as they were spelled. -/
inductive Term.Legible : Term → Prop where
  | keyword (word : Keyword) : Term.Legible (.keyword word)
  | value (text : String) : Term.Legible (.value text)
  | list {items : List Term} (ne : items ≠ []) (all : ∀ t ∈ items, Term.Legible t) :
    Term.Legible (.list items)
  | mapping : Term.Legible .mapping
  | record {name : String} (word : IsWord name) : Term.Legible (.record name)

/-- Whether a word ends in front of a text. -/
def EndsWord (text : List Char) : Prop := ∀ c ∈ text.head?, isInside c = false

/-- A word is read to its end. -/
theorem readTerm?_word {word rest : List Char} (hinside : ∀ c ∈ word, isInside c = true)
    (hfirst : ∀ c ∈ word.head?, c ∉ ['"', 'A', 'R']) (hword : word ≠ []) (hrest : EndsWord rest)
    (fuel : Nat) :
    readTerm? (fuel + 1) (word ++ rest) = some (ofWord (String.ofList word), rest) := by
  obtain ⟨c, cs, rfl⟩ := List.exists_cons_of_ne_nil hword
  obtain ⟨hquote, hlist, hmapping⟩ : c ≠ '"' ∧ c ≠ 'A' ∧ c ≠ 'R' := by simpa using hfirst
  have htake : (c :: cs ++ rest).takeWhile isInside = c :: cs := by
    rw [List.takeWhile_append_of_pos hinside]
    cases rest with
    | nil => simp
    | cons d ds => rw [List.takeWhile_cons_of_neg (by simp [hrest d rfl]), List.append_nil]
  have hdrop : (c :: cs ++ rest).dropWhile isInside = rest := by
    rw [List.dropWhile_append_of_pos hinside]
    cases rest with
    | nil => rfl
    | cons d ds => rw [List.dropWhile_cons_of_neg (by simp [hrest d rfl])]
  have hnotList : Name.after? "Array<".toList (c :: cs ++ rest) = none := if_neg (Ne.symm hlist)
  have hnotMapping : Name.after? "Record<string, unknown>".toList (c :: cs ++ rest) = none :=
    if_neg (Ne.symm hmapping)
  rw [readTerm?]
  · rw [hnotList, hnotMapping, htake, hdrop]
  · intro others heq
    exact hquote (List.cons.inj heq).1

theorem EndsWord.cons {c : Char} (h : isInside c = false) (rest : List Char) :
    EndsWord (c :: rest) := by
  intro d hd
  rwa [← Option.some.inj hd]

/-- Whether a row of terms ends in front of a text. -/
def EndsRow (text : List Char) : Prop := ∀ c ∈ text.head?, c = '>'

theorem EndsRow.endsWord {text : List Char} (h : EndsRow text) : EndsWord text := by
  intro c hc
  rw [h c hc]
  rfl

theorem EndsRow.after?_bar {text : List Char} (h : EndsRow text) :
    Name.after? " | ".toList text = none := by
  cases text with
  | nil => rfl
  | cons c rest =>
    rw [h c rfl]
    rfl

/-- With so much fuel, rows of terms are read back. -/
def ReadsRows (fuel : Nat) : Prop :=
  ∀ (terms : List Term) (rest : List Char), terms ≠ [] → (∀ t ∈ terms, t.Legible) → EndsRow rest →
    (spell terms).length < fuel →
      readTerms? fuel ((spell terms).toList ++ rest) = some (terms, rest)

/-- A term is read back when the rows in it are, and the fuel for those is its own less one. -/
theorem readTerm?_text {fuel : Nat} (hrows : ReadsRows fuel) {t : Term} (ht : t.Legible)
    {rest : List Char} (hrest : EndsWord rest) (hfuel : t.text.length ≤ fuel + 1) :
    readTerm? (fuel + 1) (t.text.toList ++ rest) = some (t, rest) := by
  cases ht with
  | keyword word =>
    have hinside : word.text.toList.all isInside = true := by cases word <;> decide
    have hread := @readTerm?_word word.text.toList rest (List.all_eq_true.mp hinside)
      (by cases word <;> simp [Keyword.text]) (by cases word <;> decide) hrest fuel
    rw [Term.text, hread, String.ofList_toList, ofWord_text]
  | value text =>
    rw [Term.text, Json.toList_quote_append, readTerm?, Json.stringBody_quoted]
    rfl
  | list ne all =>
    rename_i items
    have htext : (Term.list items).text.toList ++ rest =
        "Array<".toList ++ ((spell items).toList ++ '>' :: rest) := by
      rw [Term.text_list, String.toList_append, String.toList_append]
      simp
    have hitems := hrows items ('>' :: rest) ne all (by simp [EndsRow]) (by
      rw [Term.text_list, String.length_append, String.length_append] at hfuel
      have : "Array<".length = 6 := rfl
      omega)
    rw [htext, readTerm?]
    · rw [Name.after?_append]
      simp [hitems, Name.after?]
    · intro others heq
      cases heq
  | mapping =>
    rw [Term.text, readTerm?]
    · rw [show Name.after? "Array<".toList ("Record<string, unknown>".toList ++ rest) = none from rfl,
        Name.after?_append]
    · intro others heq
      cases heq
  | record hword =>
    rename_i name
    obtain ⟨cs, hname⟩ := hword.exists_cons
    have hread := @readTerm?_word name.toList rest hword.2
      (by simp [hname]) (by simp [hname]) hrest fuel
    rw [Term.text, hread, String.ofList_toList, ofWord_of_isWord hword]

theorem Term.Legible.length_text_pos {t : Term} (h : t.Legible) : 0 < t.text.length := by
  cases h with
  | keyword word => cases word <;> decide
  | value text =>
    rw [Term.text, ← String.length_toList, Json.quote, String.toList_ofList, Json.quoteChars]
    exact Nat.succ_pos _
  | list ne all =>
    rw [Term.text_list, String.length_append, String.length_append]
    have : "Array<".length = 6 := rfl
    omega
  | mapping => decide
  | record hword =>
    obtain ⟨cs, hname⟩ := hword.exists_cons
    rw [Term.text, ← String.length_toList, hname]
    exact Nat.succ_pos _

/-- **Rows of terms are read back.** A term is shorter than the row it begins, and what follows its
bar is shorter too. -/
theorem readsRows (fuel : Nat) : ReadsRows fuel := by
  induction fuel using Nat.strongRecOn with
  | ind fuel ih =>
    intro terms rest hne hall hrest hfuel
    cases terms with
    | nil => exact absurd rfl hne
    | cons t others =>
      rw [List.forall_mem_cons] at hall
      have hpos := hall.1.length_text_pos
      cases others with
      | nil =>
        rw [spell_singleton] at hfuel ⊢
        obtain ⟨fuel, rfl⟩ : ∃ n, fuel = n + 1 + 1 := ⟨fuel - 2, by omega⟩
        have hterm := readTerm?_text (ih fuel (by omega)) hall.1 hrest.endsWord (by omega)
        rw [readTerms?, hterm]
        simp only [Option.bind_eq_bind, Option.bind_some, hrest.after?_bar]
      | cons next others =>
        have hmore : next :: others ≠ [] := List.cons_ne_nil next others
        have hbar : " | ".length = 3 := rfl
        rw [spell_cons t hmore, String.length_append, String.length_append, hbar] at hfuel
        have htext : (spell (t :: next :: others)).toList ++ rest = t.text.toList
            ++ (" | ".toList ++ ((spell (next :: others)).toList ++ rest)) := by
          rw [spell_cons t hmore, String.toList_append, String.toList_append, List.append_assoc,
            List.append_assoc]
        obtain ⟨fuel, rfl⟩ : ∃ n, fuel = n + 1 + 1 := ⟨fuel - 2, by omega⟩
        have hterm := @readTerm?_text fuel (ih fuel (by omega)) t hall.1
          (" | ".toList ++ ((spell (next :: others)).toList ++ rest))
          (EndsWord.cons rfl _) (by omega)
        have htail := ih (fuel + 1) (by omega) (next :: others) rest hmore hall.2 hrest (by omega)
        rw [htext, readTerms?, hterm]
        simp only [Option.bind_eq_bind, Option.bind_some, Name.after?_append, htail]

/-- **A spelling is read back to its terms.** -/
theorem readType?_spell {terms : List Term} (hne : terms ≠ []) (hall : ∀ t ∈ terms, t.Legible) :
    readType? (spell terms) = some terms := by
  have hread := readsRows ((spell terms).length + 1) terms [] hne hall (by simp [EndsRow])
    (Nat.lt_succ_self _)
  rw [List.append_nil] at hread
  rw [readType?, hread]

end TypeScript

/-! ## Types -/

open TypeScript (Keyword Term IsWord spell readType?)

/-- The word for a scalar. -/
def Scalar.keyword : Scalar → Keyword
  | .string | .date | .dateTime | .time => .string
  | .number | .integer => .number
  | .boolean => .boolean
  | .null => .null

namespace Shape

mutual

/-- The terms of a type: a literal gives one for each value, and a union those of its members. -/
def terms : Shape → List Term
  | .unknown => [.keyword .unknown]
  | .scalar kind => [.keyword kind.keyword]
  | .literal values => values.map .value
  | .sequence items => [.list items.terms]
  | .mapping => [.mapping]
  | .record r => [.record r.name]
  | .union members => termsOfAll members

def termsOfAll : List Shape → List Term
  | [] => []
  | s :: rest => s.terms ++ termsOfAll rest

end

theorem termsOfAll_eq_flatMap (members : List Shape) : termsOfAll members = members.flatMap terms := by
  induction members with
  | nil => rfl
  | cons s rest ih => rw [termsOfAll, ih, List.flatMap_cons]

/-- Shapes whose types can be read: literals and unions are not empty, and the names of records are
words. What stands in the fields of a record does not matter. -/
inductive Legible : Shape → Prop where
  | unknown : Legible .unknown
  | scalar (kind : Scalar) : Legible (.scalar kind)
  | literal {values : List String} (ne : values ≠ []) : Legible (.literal values)
  | sequence {items : Shape} (items_legible : Legible items) : Legible (.sequence items)
  | mapping : Legible .mapping
  | record {r : RecordShape} (word : IsWord r.name) : Legible (.record r)
  | union {members : List Shape} (ne : members ≠ []) (all : ∀ s ∈ members, Legible s) :
    Legible (.union members)

/-- Rows that each are not empty are spelled one after the other. -/
theorem spell_flatMap_terms {members : List Shape} (hne : members ≠ [])
    (hterms : ∀ s ∈ members, s.terms ≠ []) :
    spell (members.flatMap terms) = " | ".intercalate (members.map fun s => spell s.terms) := by
  induction members with
  | nil => exact absurd rfl hne
  | cons s rest ih =>
    rw [List.forall_mem_cons] at hterms
    cases rest with
    | nil => simp
    | cons next rest =>
      have hmore : (next :: rest).flatMap terms ≠ [] := by
        rw [List.flatMap_cons]
        exact List.append_ne_nil_of_left_ne_nil (hterms.2 next List.mem_cons_self) _
      rw [List.flatMap_cons, TypeScript.spell_append hterms.1 hmore,
        ih (List.cons_ne_nil next rest) hterms.2, List.map_cons, List.map_cons, List.map_cons,
        String.intercalate_cons_cons]

theorem spelled_of_term {t : Term} (h : t.Legible) :
    [t] ≠ [] ∧ (∀ u ∈ [t], u.Legible) ∧ spell [t] = t.text :=
  ⟨List.cons_ne_nil t [], by simpa using h, TypeScript.spell_singleton t⟩

/-- **A type is the spelling of its terms**, and they can be read. -/
theorem Legible.spelled {s : Shape} (h : s.Legible) :
    s.terms ≠ [] ∧ (∀ t ∈ s.terms, t.Legible) ∧ spell s.terms = s.typescript := by
  induction h with
  | unknown => exact spelled_of_term (.keyword .unknown)
  | scalar kind =>
    have htext : kind.keyword.text = kind.typescript := by cases kind <;> rfl
    obtain ⟨hne, hall, hspell⟩ := spelled_of_term (.keyword kind.keyword)
    exact ⟨hne, hall, hspell.trans htext⟩
  | literal ne =>
    refine ⟨by simpa [terms] using ne, ?_, ?_⟩
    · intro t ht
      rw [terms] at ht
      obtain ⟨value, -, rfl⟩ := List.mem_map.mp ht
      exact .value value
    · rw [terms, TypeScript.spell, List.map_map, typescript, quoteAll]
      rfl
  | sequence _ ih =>
    obtain ⟨hne, hall, hspell⟩ := ih
    obtain ⟨hlist, hlegible, htext⟩ := spelled_of_term (.list hne hall)
    refine ⟨hlist, hlegible, ?_⟩
    rw [terms, htext, Term.text_list, hspell, typescript]
  | mapping => exact spelled_of_term .mapping
  | record word => exact spelled_of_term (.record word)
  | union ne all ih =>
    rw [terms, termsOfAll_eq_flatMap]
    refine ⟨?_, ?_, ?_⟩
    · obtain ⟨s, hs⟩ := List.exists_mem_of_ne_nil _ ne
      exact fun h => (ih s hs).1 (List.flatMap_eq_nil_iff.mp h s hs)
    · intro t ht
      obtain ⟨s, hs, hmem⟩ := List.mem_flatMap.mp ht
      exact (ih s hs).2.1 t hmem
    · rw [spell_flatMap_terms ne fun s hs => (ih s hs).1, typescript, typescriptAll_eq_map]
      exact congrArg _ (List.map_congr_left fun s hs => (ih s hs).2.2)

/-- **A type is read back to its terms.** -/
theorem readType?_typescript {s : Shape} (h : s.Legible) : readType? s.typescript = some s.terms := by
  obtain ⟨hne, hall, hspell⟩ := h.spelled
  rw [← hspell, TypeScript.readType?_spell hne hall]

/-- **Types are spelled alike exactly when they have the same terms.** -/
theorem typescript_eq_iff {a b : Shape} (ha : a.Legible) (hb : b.Legible) :
    a.typescript = b.typescript ↔ a.terms = b.terms := by
  constructor
  · intro h
    have hread := readType?_typescript ha
    rw [h, readType?_typescript hb] at hread
    exact (Option.some.inj hread).symm
  · intro h
    rw [← ha.spelled.2.2, h, hb.spelled.2.2]

/-- A quotation mark and a bar inside a value, brackets in another one, and a list of dates. -/
theorem typescript_eq_iff_for_bars :
    let found : Shape := .record ⟨"Generated_Found_00000000", []⟩
    let one : Shape :=
      .union [.literal ["a\" | \"b", "Array<string>"], .sequence (.scalar .date), found]
    let other : Shape :=
      .union [.literal ["a", "b", "Array<string>"], .sequence (.scalar .string), found]
    one.Legible ∧ other.Legible ∧ one.typescript ≠ other.typescript ∧
      one.typescript =
        "\"a\\\" | \\\"b\" | \"Array<string>\" | Array<string> | Generated_Found_00000000" ∧
      other.typescript =
        "\"a\" | \"b\" | \"Array<string>\" | Array<string> | Generated_Found_00000000" := by
  intro found one other
  have hfound : found.Legible := .record (by decide)
  have hone : one.Legible := by
    refine .union (by simp) ?_
    simp only [List.forall_mem_cons, List.not_mem_nil, false_implies, implies_true, and_true]
    exact ⟨.literal (by simp), .sequence (.scalar .date), hfound⟩
  have hother : other.Legible := by
    refine .union (by simp) ?_
    simp only [List.forall_mem_cons, List.not_mem_nil, false_implies, implies_true, and_true]
    exact ⟨.literal (by simp), .sequence (.scalar .string), hfound⟩
  have hterms : one.terms ≠ other.terms := by simp [one, other, terms, termsOfAll]
  exact ⟨hone, hother, (typescript_eq_iff hone hother).not.mpr hterms, by decide +kernel,
    by decide +kernel⟩

end Shape

end ToolShape
