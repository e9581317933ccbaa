import ToolShape.Proofs.Json.Flat
import ToolShape.Proofs.Json.Reading
import ToolShape.Proofs.TypeScript.Declaration
import ToolShape.Proofs.TypeScript.Lines
import Mathlib.Data.List.Chain

/-!
# No text of a field breaks its interface

What a field is called, how it is described and which values it may take come from elsewhere, and
all of it is printed.

> **An interface has one line for each field, with its key in front, and one line above it for a
> description** (`TypeScript.interface_unbroken`).

Names and literals are printed as JSON strings, which hold no line feed (`Json.flat_quote`), and a
key is read back to the name it was printed for, so different fields have different keys
(`readKey?_key`). A description has its white space collapsed and its closing marks taken apart, so
that the comment ends where its line does (`eq_nil_of_docLine_eq`). Only the names of records are
printed as they are.
-/

set_option autoImplicit false

namespace ToolShape

open Text (Flat flat_append_iff flat_intercalate isBlank)

/-! ## Types -/

namespace Shape

/-- All pieces of a type but the names are flat, whatever the literals in it hold. -/
theorem flat_of_fixed_mem_pieces {s : Shape} {text : String} (h : Piece.fixed text ∈ s.pieces) :
    Flat text := by
  induction s with
  | unknown =>
    rw [Piece.fixed.inj (List.mem_singleton.mp h)]
    decide
  | scalar kind =>
    rw [Piece.fixed.inj (List.mem_singleton.mp h)]
    cases kind <;> decide
  | literal values =>
    rw [Piece.fixed.inj (List.mem_singleton.mp h)]
    refine flat_intercalate (by decide) ?_
    intro part hpart
    obtain ⟨value, -, rfl⟩ := List.mem_map.mp hpart
    exact Json.flat_quote value
  | sequence items ih =>
    rw [pieces, List.cons_append, List.mem_cons, List.mem_append] at h
    rcases h with hopening | hitems | hclosing
    · rw [Piece.fixed.inj hopening]
      decide
    · exact ih hitems
    · rw [Piece.fixed.inj (List.mem_singleton.mp hclosing)]
      decide
  | mapping =>
    rw [Piece.fixed.inj (List.mem_singleton.mp h)]
    decide
  | record name fields => cases List.mem_singleton.mp h
  | union members ih =>
    rw [pieces_union] at h
    rcases Text.mem_or_exists_of_mem_intercalate h with hbar | ⟨part, hpart, hmem⟩
    · rw [Piece.fixed.inj (List.mem_singleton.mp hbar)]
      decide
    · obtain ⟨s, hs, rfl⟩ := List.mem_map.mp hpart
      exact ih s hs hmem

/-- **Control characters of a type stand in the names it mentions.** -/
theorem exists_mentioned_of_mem_typescript {s : Shape} {c : Char} (hc : c.toNat < 32)
    (h : c ∈ s.typescript.toList) : ∃ name ∈ s.mentioned, c ∈ name.toList := by
  rw [typescript_eq_join, String.toList_join] at h
  obtain ⟨text, htext, hmem⟩ := List.mem_flatMap.mp h
  obtain ⟨piece, hpiece, rfl⟩ := List.mem_map.mp htext
  cases piece with
  | name text => exact ⟨text, List.mem_filterMap.mpr ⟨.name text, hpiece, rfl⟩, hmem⟩
  | fixed text => exact absurd hmem ((flat_of_fixed_mem_pieces hpiece).not_mem hc)

end Shape

namespace TypeScript

/-! ## Comments -/

/-- Two characters in a row that do not end a comment. -/
def KeepsOpen (c d : Char) : Prop := ¬ (c = '*' ∧ d = '/')

theorem keepsOpen_of_ne {c : Char} (h : c ≠ '*') (d : Char) : KeepsOpen c d :=
  fun hboth => h hboth.1

theorem head?_guardEnds (text : List Char) : (guardEnds text).head? = text.head? := by
  fun_induction guardEnds text <;> rfl

/-- **No closing mark is left**, however stars and slashes stand in the text. -/
theorem isChain_guardEnds (text : List Char) : (guardEnds text).IsChain KeepsOpen := by
  fun_induction guardEnds text with
  | case1 rest ih =>
    rw [List.isChain_cons_cons, List.isChain_cons_cons, List.isChain_cons]
    exact ⟨by simp [KeepsOpen], keepsOpen_of_ne (by decide) _,
      fun d _ => keepsOpen_of_ne (by decide) d, ih⟩
  | case2 c rest hnot ih =>
    rw [List.isChain_cons]
    refine ⟨?_, ih⟩
    rintro d hd ⟨rfl, rfl⟩
    -- A slash in front would have been met together with the star.
    rw [head?_guardEnds] at hd
    cases rest with
    | nil => cases hd
    | cons e rest =>
      cases hd
      exact hnot rest rfl rfl
  | case3 => exact .nil

theorem mem_of_mem_guardEnds {text : List Char} {c : Char} (h : c ∈ guardEnds text) :
    c ∈ text ∨ c = '\\' := by
  fun_induction guardEnds text <;> simp_all <;> tauto

/-- The line of a description inside its interface. -/
def docLine (f : FieldShape) : String := "    /** " ++ docText f.description ++ " */"

theorem toList_docLine (f : FieldShape) :
    (docLine f).toList = "    /** ".toList
      ++ guardEnds ([' '].intercalate (Text.words f.description.toList)) ++ [' ', '*'] ++ ['/'] := by
  simp [docLine, docText]

/-- **A comment ends at the end of its line** and nowhere before. -/
theorem eq_nil_of_docLine_eq {f : FieldShape} {before after : List Char}
    (h : (docLine f).toList = before ++ '*' :: '/' :: after) : after = [] := by
  rw [toList_docLine] at h
  generalize [' '].intercalate (Text.words f.description.toList) = text at h
  have hopen : ("    /** ".toList ++ guardEnds text ++ [' ', '*']).IsChain KeepsOpen := by
    rw [List.isChain_append, List.isChain_append]
    refine ⟨⟨by simp [KeepsOpen], isChain_guardEnds text, ?_⟩, by simp [KeepsOpen], ?_⟩
    · intro c hc d _
      cases hc
      exact keepsOpen_of_ne (by decide) d
    · rintro c _ d hd ⟨-, rfl⟩
      cases hd
  rcases List.eq_nil_or_concat after with rfl | ⟨early, last, rfl⟩
  · rfl
  · -- Without the last character of the line, the mark would still be there.
    have hsplit : before ++ '*' :: '/' :: (early ++ [last]) =
        (before ++ '*' :: '/' :: early) ++ [last] := by simp
    rw [List.concat_eq_append, hsplit] at h
    obtain ⟨hbody, -⟩ := List.append_inj' h rfl
    rw [hbody, List.isChain_append, List.isChain_cons_cons] at hopen
    exact absurd ⟨rfl, rfl⟩ hopen.2.1.1

/-- The white space of a comment consists of blanks. -/
theorem eq_blank_of_mem_docLine {f : FieldShape} {c : Char} (h : c ∈ (docLine f).toList)
    (hc : isBlank c = true) : c = ' ' := by
  have hmarks : ∀ d ∈ ("    /** " ++ " */").toList, isBlank d = true → d = ' ' := by
    simp
    decide
  rw [docLine, String.toList_append, String.toList_append, List.mem_append, List.mem_append,
    or_right_comm, ← List.mem_append, ← String.toList_append] at h
  rcases h with hmark | htext
  · exact hmarks c hmark hc
  · rw [docText, String.toList_ofList] at htext
    rcases mem_of_mem_guardEnds htext with hinside | rfl
    · rcases Text.mem_or_exists_of_mem_intercalate hinside with hseparator | ⟨word, hword, hmem⟩
      · exact List.mem_singleton.mp hseparator
      · rw [(Text.words_visible _ word hword).2 c hmem] at hc
        cases hc
    · cases hc

/-! ## Keys -/

/-- Whether a character may stand in an identifier of ASCII characters. -/
def isPart (c : Char) : Bool := c.isAlphanum || c == '_' || c == '$'

/-- Reads the key of a member: a string as JSON writes it, or an identifier, which goes on as long
as it can. -/
def readKey? : List Char → Option (String × List Char)
  | '"' :: rest => (Json.stringBody rest).toOption
  | text =>
    if isIdentifier (text.takeWhile isPart) then
      some (String.ofList (text.takeWhile isPart), text.dropWhile isPart)
    else none

theorem all_isPart_of_isIdentifier {name : List Char} (h : isIdentifier name = true) :
    ∀ c ∈ name, isPart c = true := by
  cases name with
  | nil => cases h
  | cons c rest =>
    rw [isIdentifier, Bool.and_eq_true, List.all_eq_true] at h
    refine List.forall_mem_cons.mpr ⟨?_, h.2⟩
    have hfirst := h.1
    simp only [Bool.or_eq_true] at hfirst
    simp only [isPart, Char.isAlphanum, Bool.or_eq_true]
    tauto

/-- **A key is read back to the name it was printed for**, whatever that is. -/
theorem readKey?_key (name : String) {mark : Char} (hmark : isPart mark = false)
    (rest : List Char) : readKey? ((key name).toList ++ mark :: rest) = some (name, mark :: rest) := by
  unfold key
  split
  · next h =>
    have hparts := all_isPart_of_isIdentifier h
    have htake : (name.toList ++ mark :: rest).takeWhile isPart = name.toList := by
      rw [List.takeWhile_append_of_pos hparts, List.takeWhile_cons_of_neg (by simp [hmark]),
        List.append_nil]
    have hdrop : (name.toList ++ mark :: rest).dropWhile isPart = mark :: rest := by
      rw [List.dropWhile_append_of_pos hparts, List.dropWhile_cons_of_neg (by simp [hmark])]
    rw [readKey?]
    · rw [htake, if_pos h, hdrop, String.ofList_toList]
    · -- An identifier does not begin with a quotation mark.
      intro others heq
      cases hname : name.toList with
      | nil =>
        rw [hname] at h
        cases h
      | cons c cs =>
        rw [hname] at h heq
        cases heq
        cases h
  · rw [Json.toList_quote_append, readKey?, Json.stringBody_quoted]
    rfl

theorem visible_of_isPart {c : Char} (h : isPart c = true) : 32 ≤ c.toNat := by
  by_contra hlow
  have hnone : ∀ n < 32, isPart (Char.ofNat n) = false := by decide
  have hc := hnone c.toNat (Nat.not_le.mp hlow)
  rw [Char.ofNat_toNat, h] at hc
  cases hc

theorem flat_key (name : String) : Flat (key name) := by
  unfold key
  split
  · next h => exact fun c hc => visible_of_isPart (all_isPart_of_isIdentifier h c hc)
  · exact Json.flat_quote name

/-- Different names have different keys. -/
theorem key_injective : Function.Injective key := by
  intro a b h
  have ha := @readKey?_key a ':' (by decide) []
  have hb := @readKey?_key b ':' (by decide) []
  rw [h, hb] at ha
  exact (congrArg Prod.fst (Option.some.inj ha)).symm

/-! ## Lines -/

/-- The lines above a member: one for a description, if there is any. -/
def docLines (f : FieldShape) : List String := if f.description = "" then [] else [docLine f]

/-- The text of an interface. -/
def interfaceText (r : RecordShape) : String := "\n".intercalate (interfaceLines r)

/-- The lines between the first and the last. -/
def bodyLines (r : RecordShape) : List String :=
  r.fields.flatMap fun f => docLines f ++ [memberLine f]

theorem map_indent_memberLines (f : FieldShape) :
    (memberLines f).map ("    " ++ ·) = docLines f ++ [memberLine f] := by
  have hdoc : "    " ++ ("/** " ++ docText f.description ++ " */") = docLine f := by
    rw [docLine, ← String.append_assoc, ← String.append_assoc]
    rfl
  unfold memberLines docLines
  split
  · rfl
  · rw [List.singleton_append, List.map_cons, hdoc]
    rfl

theorem interfaceLines_eq {r : RecordShape} (h : r.fields ≠ []) :
    interfaceLines r = opening r :: bodyLines r ++ ["\x7d"] := by
  have hempty : ¬ r.fields.isEmpty = true := by simpa using h
  have hbody : (r.fields.flatMap memberLines).map ("    " ++ ·) = bodyLines r := by
    rw [List.map_flatMap]
    exact List.flatMap_congr fun f _ => map_indent_memberLines f
  unfold interfaceLines opening
  rw [if_neg hempty, if_neg hempty, hbody, List.singleton_append]

theorem length_bodyLines (r : RecordShape) :
    (bodyLines r).length = r.fields.length + r.fields.countP (·.description ≠ "") := by
  unfold bodyLines
  induction r.fields with
  | nil => rfl
  | cons f rest ih =>
    rw [List.flatMap_cons, List.length_append, ih, List.length_append, List.countP_cons, docLines]
    by_cases hdescription : f.description = ""
    · simp [hdescription]
      omega
    · simp [hdescription]
      omega

theorem exists_mentioned_of_mem_memberLine {f : FieldShape} {c : Char} (hc : c.toNat < 32)
    (h : c ∈ (memberLine f).toList) : ∃ name ∈ f.shape.mentioned, c ∈ name.toList := by
  have hkey := (flat_key f.name).not_mem hc
  have hmark : c ∉ (if f.required then "" else "?").toList := by
    refine Flat.not_mem ?_ hc
    split <;> decide
  have hfixed : ∀ text : String, Flat text → c ∉ text.toList := fun _ htext => htext.not_mem hc
  rw [memberLine] at h
  simp only [String.toList_append, List.mem_append, hkey, hmark, hfixed "    " (by decide),
    hfixed ": " (by decide), hfixed ";" (by decide), false_or, or_false] at h
  exact Shape.exists_mentioned_of_mem_typescript hc h

/-- **What could break a line of an interface stands in names**: its own, or one that it uses. -/
theorem exists_name_of_mem_interfaceLines {r : RecordShape} {c : Char} (hc : c.toNat < 32)
    (hblank : isBlank c = true) {line : String} (hline : line ∈ interfaceLines r)
    (h : c ∈ line.toList) : ∃ name ∈ r.name :: (Declaration.interface r).uses, c ∈ name.toList := by
  have hopening : c ∈ (opening r).toList → c ∈ r.name.toList := by
    intro hmem
    have hbrace : c ∉ (if r.fields.isEmpty then " \x7b\x7d" else " \x7b").toList := by
      refine Flat.not_mem ?_ hc
      split <;> decide
    have hkeyword : c ∉ "export interface ".toList := Flat.not_mem (by decide) hc
    unfold opening at hmem
    rw [String.toList_append, String.toList_append, List.mem_append, List.mem_append] at hmem
    exact (hmem.resolve_right hbrace).resolve_left hkeyword
  by_cases hfields : r.fields = []
  · -- Without fields there is but the first line.
    have hempty : r.fields.isEmpty = true := List.isEmpty_iff.mpr hfields
    have hlines : interfaceLines r = [opening r] := by
      unfold interfaceLines opening
      rw [if_pos hempty, if_pos hempty]
    rw [hlines, List.mem_singleton] at hline
    rw [hline] at h
    exact ⟨r.name, List.mem_cons_self, hopening h⟩
  rw [interfaceLines_eq hfields, List.cons_append, List.mem_cons, List.mem_append,
    List.mem_singleton] at hline
  rcases hline with rfl | hbody | rfl
  · exact ⟨r.name, List.mem_cons_self, hopening h⟩
  · obtain ⟨f, hf, hmem⟩ := List.mem_flatMap.mp hbody
    rcases List.mem_append.mp hmem with hdoc | hmember
    · -- A comment has no such white space.
      have hnot : c ∉ (docLine f).toList := by
        intro hin
        rw [eq_blank_of_mem_docLine hin hblank] at hc
        exact absurd hc (by decide)
      unfold docLines at hdoc
      split at hdoc
      · cases hdoc
      · exact absurd (List.mem_singleton.mp hdoc ▸ h) hnot
    · rw [List.mem_singleton.mp hmember] at h
      obtain ⟨name, hname, hin⟩ := exists_mentioned_of_mem_memberLine hc h
      exact ⟨name, List.mem_cons_of_mem _ (List.mem_flatMap.mpr ⟨f, hf, hname⟩), hin⟩
  · exact absurd h (Flat.not_mem (by decide) hc)

/-- These names are those of the records in the interface's own. -/
theorem exists_record_of_mem_interfaceLines {r : RecordShape} {c : Char} (hc : c.toNat < 32)
    (hblank : isBlank c = true) {line : String} (hline : line ∈ interfaceLines r)
    (h : c ∈ line.toList) : ∃ nested ∈ r.records, c ∈ nested.name.toList := by
  obtain ⟨name, hname, hin⟩ := exists_name_of_mem_interfaceLines hc hblank hline h
  rw [RecordShape.records_eq]
  rcases List.mem_cons.mp hname with rfl | huses
  · exact ⟨r, List.mem_append_right _ (List.mem_singleton_self r), hin⟩
  · obtain ⟨f, hf, hmentioned⟩ := List.mem_flatMap.mp huses
    obtain ⟨nested, hnested, rfl⟩ := List.mem_map.mp (Shape.mentioned_subset f.shape hmentioned)
    exact ⟨nested, List.mem_append_left _ (List.mem_flatMap.mpr ⟨f, hf, hnested⟩), hin⟩

/-- What follows the key of a member. -/
def afterKey (f : FieldShape) : String :=
  (if f.required then "" else "?") ++ ": " ++ f.shape.typescript ++ ";"

theorem readKey?_memberLine (f : FieldShape) :
    readKey? ((memberLine f).toList.drop 4) = some (f.name, (afterKey f).toList) := by
  have hline : (memberLine f).toList.drop 4 = (key f.name).toList ++ (afterKey f).toList := by
    simp [memberLine, afterKey]
  obtain ⟨mark, rest, hafter, hmark⟩ :
      ∃ mark rest, (afterKey f).toList = mark :: rest ∧ isPart mark = false := by
    unfold afterKey
    cases f.required with
    | true => exact ⟨':', (" " ++ f.shape.typescript ++ ";").toList, by simp, rfl⟩
    | false => exact ⟨'?', (": " ++ f.shape.typescript ++ ";").toList, by simp, rfl⟩
  rw [hline, hafter, readKey?_key f.name hmark rest]

/-! ## In the file -/

/-- Lines that each end with a line feed. -/
theorem join_map_feed {lines : List String} (h : lines ≠ []) :
    String.join (lines.map (· ++ "\n")) = "\n".intercalate lines ++ "\n" := by
  induction lines with
  | nil => exact absurd rfl h
  | cons line rest ih =>
    cases rest with
    | nil => simp
    | cons next rest =>
      rw [List.map_cons, String.join_cons, ih (List.cons_ne_nil next rest),
        String.intercalate_cons_cons]
      simp only [String.append_assoc]

/-- Parts set off from each other by an empty line: one that is not the first has one before it. -/
theorem exists_intercalate_eq {first part : List String} {parts : List (List String)}
    (h : part ∈ parts) :
    ∃ before after, [""].intercalate (first :: parts) = before ++ [""] ++ part ++ after := by
  induction parts generalizing first with
  | nil => cases h
  | cons next rest ih =>
    rw [List.intercalate_cons_cons]
    rcases List.mem_cons.mp h with rfl | hrest
    · cases rest with
      | nil => exact ⟨first, [], by simp⟩
      | cons other rest =>
        refine ⟨first, [""] ++ [""].intercalate (other :: rest), ?_⟩
        rw [List.intercalate_cons_cons]
        simp only [List.append_assoc]
    · obtain ⟨before, after, heq⟩ := ih hrest
      refine ⟨first ++ [""] ++ before, after, ?_⟩
      rw [heq]
      simp only [List.append_assoc]

/-- **An interface that is declared stands in the file on lines of its own.** -/
theorem exists_render_eq {tools : List Tool} {r : RecordShape}
    (h : r ∈ interfaces (declarations tools)) :
    ∃ before after, render tools = before ++ "\n" ++ interfaceText r ++ "\n" ++ after := by
  have hpart : interfaceLines r ∈ (declarations tools).map Declaration.lines := by
    obtain ⟨d, hd, hrecord⟩ := List.mem_filterMap.mp h
    cases d with
    | interface s =>
      cases hrecord
      exact List.mem_map_of_mem hd
    | synonym name target => cases hrecord
  have hne : interfaceLines r ≠ [] := by
    unfold interfaceLines
    split <;> simp
  obtain ⟨before, after, heq⟩ := @exists_intercalate_eq header _ _ hpart
  refine ⟨String.join (before.map (· ++ "\n")), String.join (after.map (· ++ "\n")), ?_⟩
  rw [render, fileLines, heq, List.map_append, List.map_append, List.map_append,
    String.join_append, String.join_append, String.join_append, join_map_feed hne, interfaceText]
  simp [String.append_assoc]

/-- How the text of an interface reads, line by line. -/
structure Unbroken (r : RecordShape) : Prop where
  /-- Between the first line and the last there are those of the fields, in order. -/
  lines_eq : Text.lines (interfaceText r) =
    opening r :: (r.fields.flatMap fun f => docLines f ++ [memberLine f]) ++ ["\x7d"]
  length_between : ((Text.lines (interfaceText r)).drop 1).dropLast.length =
    r.fields.length + r.fields.countP (·.description ≠ "")
  /-- A comment closes at its end and only there. -/
  closing : ∀ f ∈ r.fields, ∀ line ∈ docLines f, (∃ text, line = text ++ "*/") ∧
    ∀ before after, line.toList = before ++ '*' :: '/' :: after → after = []
  /-- No comment holds a line feed, a carriage return or a separator of lines or paragraphs. -/
  terminators : ∀ f ∈ r.fields, ∀ line ∈ docLines f,
    ∀ c ∈ ['\n', '\r', '\u2028', '\u2029'], c ∉ line.toList
  /-- Past its indent a member begins with a key, and that is read as the name of the field. -/
  key_eq : ∀ f ∈ r.fields,
    readKey? ((memberLine f).toList.drop 4) = some (f.name, (afterKey f).toList)

theorem eq_docLine_of_mem_docLines {f : FieldShape} {line : String} (h : line ∈ docLines f) :
    line = docLine f := by
  unfold docLines at h
  split at h
  · cases h
  · exact List.mem_singleton.mp h

theorem unbroken {r : RecordShape} (hfields : r.fields ≠ [])
    (hnames : ∀ nested ∈ r.records, '\n' ∉ nested.name.toList) : Unbroken r := by
  have hlines : Text.lines (interfaceText r) = opening r :: bodyLines r ++ ["\x7d"] := by
    have hne : interfaceLines r ≠ [] := by simp [interfaceLines_eq hfields]
    rw [interfaceText, Text.lines_intercalate hne, Text.flatMap_lines_eq_self,
      interfaceLines_eq hfields]
    intro line hline hfeed
    obtain ⟨nested, hnested, hmem⟩ :=
      exists_record_of_mem_interfaceLines (by decide) (by decide) hline hfeed
    exact hnames nested hnested hmem
  refine ⟨hlines, ?_, ?_, ?_, fun f _ => readKey?_memberLine f⟩
  · rw [hlines, List.cons_append, List.drop_one, List.tail_cons, List.dropLast_concat,
      length_bodyLines]
  · intro f _ line hline
    rw [eq_docLine_of_mem_docLines hline]
    refine ⟨⟨"    /** " ++ docText f.description ++ " ", ?_⟩, fun _ _ => eq_nil_of_docLine_eq⟩
    rw [docLine, show " */" = " " ++ "*/" from rfl, ← String.append_assoc]
  · intro f _ line hline c hc hmem
    rw [eq_docLine_of_mem_docLines hline] at hmem
    have hblank : ∀ c ∈ ['\n', '\r', '\u2028', '\u2029'], isBlank c = true ∧ c ≠ ' ' := by
      simp only [List.forall_mem_cons, List.not_mem_nil, false_implies, implies_true, and_true]
      decide
    exact (hblank c hc).2 (eq_blank_of_mem_docLine hmem (hblank c hc).1)

/-- **No text of a field breaks its interface**, if the names of the records in it hold no line feed.
The text stands in the file of tools as it is, a carriage return can come from a name of a record
only, and different names of fields give different keys. -/
theorem interface_unbroken (r : RecordShape) (hfields : r.fields ≠ [])
    (hnames : ∀ nested ∈ r.records, '\n' ∉ nested.name.toList) :
    Unbroken r ∧ Function.Injective key ∧
      (∀ tools, r ∈ interfaces (declarations tools) →
        ∃ before after, render tools = before ++ "\n" ++ interfaceText r ++ "\n" ++ after) ∧
      ((∀ nested ∈ r.records, '\r' ∉ nested.name.toList) → '\r' ∉ (interfaceText r).toList) := by
  refine ⟨unbroken hfields hnames, key_injective, fun tools => exists_render_eq, ?_⟩
  intro hreturn hmem
  rcases Text.mem_toList_intercalate hmem with hfeed | ⟨line, hline, hin⟩
  · exact absurd hfeed (by decide)
  · obtain ⟨nested, hnested, hname⟩ :=
      exists_record_of_mem_interfaceLines (by decide) (by decide) hline hin
    exact hreturn nested hnested hname

/-- Stars and slashes on two lines of a description, quotation marks in a name, and bars in a
literal. -/
theorem interface_unbroken_for_stars :
    let order : FieldShape := .mandatory "sort\nby" (.literal ["a\" | \"b", "*/"]) "**//\n*/ end *"
    let page : FieldShape := .optional "page" (.scalar .integer) "\u2028"
    let r : RecordShape := ⟨"Generated_Query_00000000", [order, page]⟩
    r.fields ≠ [] ∧ (∀ nested ∈ r.records, '\n' ∉ nested.name.toList) ∧ Unbroken r ∧
      Text.lines (interfaceText r) =
        ["export interface Generated_Query_00000000 \x7b",
          "    /** **\\// *\\/ end * */",
          "    \"sort\\nby\": \"a\\\" | \\\"b\" | \"*/\";",
          "    /**  */",
          "    page?: number | null;",
          "\x7d"] := by
  intro order page r
  have hfields : r.fields ≠ [] := by simp [r]
  have hnames : ∀ nested ∈ r.records, '\n' ∉ nested.name.toList := by decide +kernel
  exact ⟨hfields, hnames, (interface_unbroken r hfields hnames).1, by decide +kernel⟩

end TypeScript

end ToolShape
