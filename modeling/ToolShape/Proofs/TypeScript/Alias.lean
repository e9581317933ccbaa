import ToolShape.Proofs.TypeScript.Identifier
import ToolShape.Tool.Catalog

/-!
# When two tools share an alias

An alias is made of the words of a tool's name, each with its first letter in upper case
(`Tool.Name.capitalized_eq_flatMap`). What stands between the words is lost, so tools whose names
differ in nothing else are declared under one alias (`two_tools_share_an_alias`), and so are tools
whose names differ in the case of a letter that begins a word.

> **Plainly named tools share an alias exactly when their names have the same words**
> (`aliases_tell_words_apart`).

A name is plain when each of its words is a lower-case letter with lower-case letters and digits
behind it. Then the upper-case letters of the alias show where the words begin, and the words can be
read off. If one character separates the words of all names, the words are all there is to a name.
-/

set_option autoImplicit false

namespace ToolShape

namespace Tool.Name

/-! ## Words -/

/-- The runs of letters and digits of a name. -/
def words (name : Name) : List (List Char) :=
  (name.text.toList.splitOnP (!·.isAlphanum)).filter (!·.isEmpty)

/-- A word with its first letter in upper case. -/
def capitalizeWord : List Char → List Char
  | [] => []
  | c :: rest => c.toUpper :: rest

/-- What is left of a text, in a run that has begun and in one that is to begin: the pieces between
separators, all of them capitalised but the rest of a run that has begun. -/
theorem capitalized_eq_of_splitOnP (text : List Char) :
    ∃ piece pieces, text.splitOnP (!·.isAlphanum) = piece :: pieces ∧
      capitalized true text = (piece :: pieces).flatMap capitalizeWord ∧
      capitalized false text = piece ++ pieces.flatMap capitalizeWord := by
  induction text with
  | nil => exact ⟨[], [], List.splitOnP_nil, rfl, rfl⟩
  | cons c rest ih =>
    obtain ⟨piece, pieces, hsplit, hbegin, hinside⟩ := ih
    rw [List.splitOnP_cons_eq_if_modifyHead, hsplit, capitalized, capitalized]
    cases hc : c.isAlphanum with
    | true =>
      refine ⟨c :: piece, pieces, rfl, ?_, ?_⟩
      · simp [hinside, capitalizeWord]
      · simp [hinside]
    | false =>
      refine ⟨[], piece :: pieces, rfl, ?_, ?_⟩
      · simpa [capitalizeWord] using hbegin
      · simpa using hbegin

theorem capitalized_eq_flatMap (name : Name) :
    capitalized true name.text.toList = name.words.flatMap capitalizeWord := by
  obtain ⟨piece, pieces, hsplit, hbegin, -⟩ := capitalized_eq_of_splitOnP name.text.toList
  rw [hbegin, words, hsplit]
  generalize piece :: pieces = all
  induction all with
  | nil => rfl
  | cons word rest ih => cases word <;> simp [capitalizeWord, ih]

/-- **An alias knows the words of a name only.** -/
theorem className_eq_of_words_eq {a b : Name} (h : a.words = b.words) :
    a.className = b.className := by
  unfold className
  rw [capitalized_eq_flatMap, capitalized_eq_flatMap, h]

/-! ## Plain names -/

/-- A lower-case letter, and lower-case letters and digits behind it. -/
def isPlainWord : List Char → Bool
  | [] => false
  | c :: rest => c.isLower && rest.all fun d => d.isLower || d.isDigit

/-- A name of plain words, at least one. -/
def isPlain (name : Name) : Bool := !name.words.isEmpty && name.words.all isPlainWord

/-- The words of a name are all there is to it but for one character between them. -/
def IsJoinedBy (separator : Char) (name : Name) : Prop :=
  name.text.toList = [separator].intercalate name.words

theorem isAlphanum_of_isLower {c : Char} (h : c.isLower = true) : c.isAlphanum = true := by
  change (c.isUpper || c.isLower || c.isDigit) = true
  rw [h, Bool.or_true, Bool.true_or]

theorem isLower_induct {motive : Char → Prop} (h : ∀ n < 128, motive (Char.ofNat n)) {c : Char}
    (hc : c.isLower = true) : motive c :=
  TypeScript.alphanum_induct h (isAlphanum_of_isLower hc)

theorem isUpper_toUpper {c : Char} (h : c.isLower = true) : c.toUpper.isUpper = true :=
  isLower_induct (motive := fun c => c.isLower = true → c.toUpper.isUpper = true)
    (by decide +kernel) h h

theorem toLower_toUpper {c : Char} (h : c.isLower = true) : c.toUpper.toLower = c :=
  isLower_induct (motive := fun c => c.isLower = true → c.toUpper.toLower = c)
    (by decide +kernel) h h

theorem not_isUpper_of_inside {c : Char} (h : (c.isLower || c.isDigit) = true) :
    (!c.isUpper) = true := by
  have halphanum : c.isAlphanum = true := by
    rcases Bool.or_eq_true _ _ |>.mp h with hlower | hdigit
    · exact isAlphanum_of_isLower hlower
    · simp [Char.isAlphanum, hdigit]
  exact TypeScript.alphanum_induct
    (motive := fun c => (c.isLower || c.isDigit) = true → (!c.isUpper) = true)
    (by decide +kernel) halphanum h

/-- Capitalised words are nothing, or begin in upper case. -/
theorem takeWhile_flatMap_capitalizeWord {words : List (List Char)}
    (h : ∀ w ∈ words, isPlainWord w = true) :
    (words.flatMap capitalizeWord).takeWhile (!·.isUpper) = [] := by
  cases words with
  | nil => rfl
  | cons word rest =>
    have hword := h word List.mem_cons_self
    cases word with
    | nil => cases hword
    | cons c inside =>
      have hc : c.isLower = true := (Bool.and_eq_true _ _ |>.mp hword).1
      simp [capitalizeWord, isUpper_toUpper hc]

/-- **Capitalised words can be told apart.** By induction on both lists: the first word ends where
the next upper-case letter stands. -/
theorem words_eq_of_flatMap_capitalizeWord_eq {as bs : List (List Char)}
    (ha : ∀ w ∈ as, isPlainWord w = true) (hb : ∀ w ∈ bs, isPlainWord w = true)
    (h : as.flatMap capitalizeWord = bs.flatMap capitalizeWord) : as = bs := by
  induction as generalizing bs with
  | nil =>
    cases bs with
    | nil => rfl
    | cons b _ => cases b with
      | nil => cases hb [] List.mem_cons_self
      | cons _ _ => cases h
  | cons a as ih =>
    rw [List.forall_mem_cons] at ha
    cases bs with
    | nil => cases a with
      | nil => cases ha.1
      | cons _ _ => cases h
    | cons b bs =>
      rw [List.forall_mem_cons] at hb
      match a, b, ha.1, hb.1 with
      | c :: s, d :: t, hc, hd =>
        simp only [isPlainWord, Bool.and_eq_true, List.all_eq_true] at hc hd
        simp only [List.flatMap_cons, capitalizeWord, List.cons_append, List.cons.injEq] at h
        obtain ⟨hfirst, hrest⟩ := h
        have hcd : c = d := by rw [← toLower_toUpper hc.1, hfirst, toLower_toUpper hd.1]
        have hs : ∀ e ∈ s, (!e.isUpper) = true := fun e he => not_isUpper_of_inside (hc.2 e he)
        have ht : ∀ e ∈ t, (!e.isUpper) = true := fun e he => not_isUpper_of_inside (hd.2 e he)
        have hst : s = t := by
          have htake := congrArg (List.takeWhile fun e => !e.isUpper) hrest
          rwa [List.takeWhile_append_of_pos hs, List.takeWhile_append_of_pos ht,
            takeWhile_flatMap_capitalizeWord ha.2, takeWhile_flatMap_capitalizeWord hb.2,
            List.append_nil, List.append_nil] at htake
        subst hst
        rw [hcd, ih ha.2 hb.2 (List.append_cancel_left hrest)]

theorem isPlain_iff {name : Name} :
    name.isPlain = true ↔ name.words ≠ [] ∧ ∀ w ∈ name.words, isPlainWord w = true := by
  simp [isPlain, List.all_eq_true]

/-- The class name of a plain name is its capitalised words and nothing else. -/
theorem toList_className_of_isPlain {name : Name} (h : name.isPlain = true) :
    name.className.toList = name.words.flatMap capitalizeWord := by
  obtain ⟨hne, hplain⟩ := isPlain_iff.mp h
  unfold className
  rw [capitalized_eq_flatMap]
  match hwords : name.words with
  | [] => exact absurd hwords hne
  | [] :: _ => cases hplain [] (hwords ▸ List.mem_cons_self)
  | (c :: inside) :: rest =>
    have hword : isPlainWord (c :: inside) = true := hplain _ (hwords ▸ List.mem_cons_self)
    have hc : c.isLower = true := (Bool.and_eq_true _ _ |>.mp hword).1
    have hupper : c.toUpper.isUpper = true := isUpper_toUpper hc
    have hdigit : ¬ c.toUpper.isDigit = true :=
      isLower_induct (motive := fun c => c.isLower = true → ¬ c.toUpper.isDigit = true)
        (by decide +kernel) hc hc
    rw [List.flatMap_cons, capitalizeWord, List.cons_append]
    dsimp only
    rw [if_neg hdigit, String.toList_ofList]

/-- **Plain names have the same class name exactly when they have the same words.** -/
theorem className_eq_iff {a b : Name} (ha : a.isPlain = true) (hb : b.isPlain = true) :
    a.className = b.className ↔ a.words = b.words := by
  constructor
  · intro h
    apply words_eq_of_flatMap_capitalizeWord_eq (isPlain_iff.mp ha).2 (isPlain_iff.mp hb).2
    rw [← toList_className_of_isPlain ha, h, toList_className_of_isPlain hb]
  · exact className_eq_of_words_eq

theorem eq_of_isJoinedBy {separator : Char} {a b : Name} (ha : a.IsJoinedBy separator)
    (hb : b.IsJoinedBy separator) (h : a.words = b.words) : a.text = b.text := by
  apply String.toList_injective
  rw [show a.text.toList = _ from ha, h]
  exact hb.symm

end Tool.Name

/-! ## Aliases of a file -/

namespace TypeScript

/-- The names under which the tools of a file are declared, in order. -/
def aliases (ds : List Declaration) : List String := (ds.filterMap Declaration.synonym?).map Prod.fst

theorem aliases_declarations (tools : List Tool) :
    aliases (declarations tools) = tools.map aliasName := by
  rw [aliases, declarations, synonyms_declarationsFrom, List.map_map]
  rfl

theorem aliasName_eq_iff {a b : Tool} :
    aliasName a = aliasName b ↔ a.definition.name.className = b.definition.name.className :=
  String.append_left_inj "Args"

/-- Lists of values that agree on which entries are equal. -/
theorem nodup_map_iff {α β γ : Type} {f : α → β} {g : α → γ} {entries : List α}
    (h : ∀ a ∈ entries, ∀ b ∈ entries, f a = f b ↔ g a = g b) :
    (entries.map f).Nodup ↔ (entries.map g).Nodup := by
  rw [List.Nodup, List.Nodup, List.pairwise_map, List.pairwise_map]
  exact List.Pairwise.iff_of_mem fun ha hb => not_congr (h _ ha _ hb)

/-- **A file has one alias for each tool, in order, and plainly named tools have different aliases
exactly when their names have different words.** If in addition one character separates the words of
all names, different names are enough. Names with the same words never have different aliases. -/
theorem aliases_tell_words_apart (tools : List Tool) :
    aliases (declarations tools) = tools.map aliasName ∧
      ((aliases (declarations tools)).Nodup → (tools.map (·.definition.name.words)).Nodup) ∧
      ((∀ tool ∈ tools, tool.definition.name.isPlain = true) →
        ((aliases (declarations tools)).Nodup ↔ (tools.map (·.definition.name.words)).Nodup) ∧
        ∀ separator, (∀ tool ∈ tools, tool.definition.name.IsJoinedBy separator) →
          (tools.map Tool.name).Nodup → (aliases (declarations tools)).Nodup) := by
  rw [aliases_declarations]
  refine ⟨rfl, ?_, ?_⟩
  · intro hnodup
    rw [List.Nodup, List.pairwise_map] at hnodup ⊢
    refine hnodup.imp fun hne hwords => hne ?_
    exact aliasName_eq_iff.mpr (Tool.Name.className_eq_of_words_eq hwords)
  · intro hplain
    have hiff : (tools.map aliasName).Nodup ↔ (tools.map (·.definition.name.words)).Nodup := by
      apply nodup_map_iff
      intro a ha b hb
      rw [aliasName_eq_iff, Tool.Name.className_eq_iff (hplain a ha) (hplain b hb)]
    refine ⟨hiff, ?_⟩
    intro separator hjoined hnames
    rw [hiff]
    refine (nodup_map_iff ?_).mp hnames
    intro a ha b hb
    constructor
    · intro hname
      have htext : a.definition.name.text = b.definition.name.text := hname
      unfold Tool.Name.words
      rw [htext]
    · exact Tool.Name.eq_of_isJoinedBy (hjoined a ha) (hjoined b hb)

/-- Tools with underscores in their names. -/
theorem aliases_tell_words_apart_for_weather :
    let tool (name : Tool.Name) : Tool :=
      (Tool.convert ⟨.counting 0, 64⟩ ⟨name, "", Tool.Definition.emptySchema⟩ 0).value
    let tools := [tool ⟨"get_weather", by decide⟩, tool ⟨"get_weather2", by decide⟩,
      tool ⟨"getweather", by decide⟩]
    (∀ tool ∈ tools, tool.definition.name.isPlain = true) ∧
      (∀ tool ∈ tools, tool.definition.name.IsJoinedBy '_') ∧ (tools.map Tool.name).Nodup ∧
      aliases (declarations tools) = ["GetWeatherArgs", "GetWeather2Args", "GetweatherArgs"] ∧
      (aliases (declarations tools)).Nodup := by
  intro tool tools
  have hplain : ∀ tool ∈ tools, tool.definition.name.isPlain = true := by
    decide +kernel
  have hjoined : ∀ tool ∈ tools, tool.definition.name.IsJoinedBy '_' := by
    unfold Tool.Name.IsJoinedBy
    decide +kernel
  have hnames : (tools.map Tool.name).Nodup := by
    decide +kernel
  obtain ⟨-, -, hall⟩ := aliases_tell_words_apart tools
  exact ⟨hplain, hjoined, hnames, by decide +kernel, (hall hplain).2 '_' hjoined hnames⟩

/-- **Two tools of one catalog, and one alias for both**: it is declared twice. -/
theorem two_tools_share_an_alias :
    let hyphen : Tool.Definition := ⟨⟨"a-b", by decide⟩, "", Tool.Definition.emptySchema⟩
    let space : Tool.Definition := ⟨⟨"a b", by decide⟩, "", Tool.Definition.emptySchema⟩
    let converter : Converter := ⟨.counting 0, 64⟩
    let tools := [(Tool.convert converter hyphen 0).value, (Tool.convert converter space 1).value]
    Tool.Catalog.parse "[[\"a-b\"],[\"a b\"]]" = .ok ⟨[hyphen, space]⟩ ∧
      (tools.map Tool.name).Nodup ∧
      aliases (declarations tools) = ["ABArgs", "ABArgs"] ∧
      ¬ (aliases (declarations tools)).Nodup := by
  intro hyphen space converter tools
  have hparse : Tool.Catalog.parse "[[\"a-b\"],[\"a b\"]]" = .ok ⟨[hyphen, space]⟩ := by
    cbv
  have haliases : aliases (declarations tools) = ["ABArgs", "ABArgs"] := by
    decide +kernel
  refine ⟨hparse, by decide +kernel, haliases, ?_⟩
  rw [haliases]
  decide

end TypeScript

end ToolShape
