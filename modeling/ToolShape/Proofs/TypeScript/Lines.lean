import ToolShape.TypeScript.Declaration
import Mathlib.Data.List.Basic

/-!
# The lines of a declarations file

The file is a list of lines, and what is declared can be read off them again: the lines that begin
with `export` are the headings of the declarations, one each and in order (`headings_fileLines`),
and the lines inside an interface are its members, apart from comments (`membersIn_interfaceLines`).
A comment is known by the slash with which it begins, which no key has in that place. The mark of an
optional field follows its key (`startsWith_memberLine_iff`).
-/

set_option autoImplicit false

namespace ToolShape.TypeScript

/-- The first line of an interface. -/
def opening (r : RecordShape) : String :=
  "export interface " ++ r.name ++ (if r.fields.isEmpty then " \x7b\x7d" else " \x7b")

def aliasLine (name target : String) : String := "export type " ++ name ++ " = " ++ target ++ ";"

/-- The line with which a declaration begins. -/
def Declaration.heading : Declaration → String
  | interface r => opening r
  | synonym name target => aliasLine name target

/-- The line of a field inside its interface. -/
def memberLine (f : FieldShape) : String :=
  "    " ++ (key f.name ++ (if f.required then "" else "?") ++ ": " ++ f.shape.typescript ++ ";")

def startsWith (text line : String) : Bool := text.toList.isPrefixOf line.toList

/-- The lines between the first and the last, without the comments. -/
def membersIn (lines : List String) : List String :=
  (lines.drop 1).dropLast.filter (!startsWith "    /" ·)

theorem startsWith_append {text line : String} (h : startsWith text line = true) (more : String) :
    startsWith text (line ++ more) = true := by
  rw [startsWith, List.isPrefixOf_iff_prefix] at h ⊢
  rw [String.toList_append]
  exact h.trans (List.prefix_append _ _)

theorem startsWith_export_indented (line : String) :
    startsWith "export " ("    " ++ line) = false := by
  simp [startsWith, List.isPrefixOf]

/-- A key begins with a letter, an underscore, a dollar sign or a quotation mark. -/
theorem first_of_key (name : String) : ∃ c rest, (key name).toList = c :: rest ∧ c ≠ '/' := by
  unfold key
  split
  · next h =>
    cases hname : name.toList with
    | nil =>
      rw [hname] at h
      cases h
    | cons c rest =>
      refine ⟨c, rest, rfl, ?_⟩
      rintro rfl
      rw [hname, isIdentifier] at h
      cases h
  · refine ⟨'"', name.toList.flatMap Json.escape ++ ['"'], ?_, by decide⟩
    rw [Json.quote, String.toList_ofList, Json.quoteChars, List.cons_append]

theorem startsWith_comment_memberLine (f : FieldShape) :
    startsWith "    /" (memberLine f) = false := by
  obtain ⟨c, rest, hkey, hc⟩ := first_of_key f.name
  simp [startsWith, memberLine, hkey, List.isPrefixOf, hc.symm]

theorem filter_memberLines (f : FieldShape) :
    ((memberLines f).map ("    " ++ ·)).filter (!startsWith "    /" ·) = [memberLine f] := by
  have hmember : ([memberLine f].filter (!startsWith "    /" ·)) = [memberLine f] := by
    simp [startsWith_comment_memberLine]
  unfold memberLines
  split
  · rw [List.nil_append, List.map_singleton]
    exact hmember
  · have hcomment : ∀ text, startsWith "    /" ("    " ++ ("/** " ++ text ++ " */")) = true := by
      simp [startsWith, List.isPrefixOf]
    rw [List.map_append, List.filter_append, List.map_singleton, List.map_singleton,
      List.filter_cons_of_neg (by simp [hcomment]), List.filter_nil, List.nil_append]
    exact hmember

/-- **An interface has one member for each field**, in the order of the fields. -/
theorem membersIn_interfaceLines (r : RecordShape) :
    membersIn (interfaceLines r) = r.fields.map memberLine := by
  unfold interfaceLines
  split
  · next h =>
    rw [List.isEmpty_iff.mp h]
    rfl
  · rw [membersIn, List.append_assoc, List.singleton_append, List.drop_one, List.tail_cons,
      List.dropLast_concat, List.map_flatMap, List.filter_flatMap, List.map_eq_flatMap]
    exact List.flatMap_congr fun f _ => filter_memberLines f

theorem startsWith_memberLine_iff (f : FieldShape) :
    startsWith ("    " ++ key f.name ++ "?") (memberLine f) = true ↔ f.required = false := by
  have hline : ∀ mark : String,
      "    " ++ (key f.name ++ mark ++ ": " ++ f.shape.typescript ++ ";") =
        "    " ++ key f.name ++ (mark ++ (": " ++ f.shape.typescript ++ ";")) := by
    intro mark
    simp only [String.append_assoc]
  rw [memberLine, hline, startsWith, List.isPrefixOf_iff_prefix, String.toList_append,
    String.toList_append (t := _ ++ _), List.prefix_append_right_inj]
  cases f.required with
  | false =>
    rw [if_neg Bool.false_ne_true, String.toList_append]
    exact iff_of_true (List.prefix_append _ _) rfl
  | true =>
    rw [if_pos rfl, String.empty_append, String.append_assoc, String.toList_append]
    exact iff_of_false (by simp) Bool.noConfusion

/-- The lines that begin declarations are those that begin with `export`. -/
theorem filter_lines (d : Declaration) :
    d.lines.filter (startsWith "export ") = [d.heading] := by
  cases d with
  | synonym name target =>
    apply List.filter_cons_of_pos
    apply startsWith_append
    apply startsWith_append
    apply startsWith_append
    exact startsWith_append (by decide) name
  | interface r =>
    have hopening : ∀ rest,
        startsWith "export " ("export interface " ++ r.name ++ rest) = true := by
      intro rest
      exact startsWith_append (startsWith_append (by decide) r.name) rest
    have hbody : ((r.fields.flatMap memberLines).map ("    " ++ ·)).filter
        (startsWith "export ") = [] := by
      rw [List.filter_eq_nil_iff]
      intro line hline
      obtain ⟨body, -, rfl⟩ := List.mem_map.mp hline
      rw [startsWith_export_indented]
      exact Bool.false_ne_true
    have hend : ["\x7d"].filter (startsWith "export ") = [] := by decide
    show (interfaceLines r).filter (startsWith "export ") = [opening r]
    unfold interfaceLines opening
    split
    · rw [List.filter_cons_of_pos (hopening _), List.filter_nil]
    · rw [List.filter_append, List.filter_append, hbody, hend, List.append_nil, List.append_nil,
        List.filter_cons_of_pos (hopening _), List.filter_nil]

theorem filter_intercalate {p : String → Bool} (hblank : p "" = false)
    (parts : List (List String)) :
    ([""].intercalate parts).filter p = parts.flatMap (List.filter p) := by
  induction parts with
  | nil => rfl
  | cons part rest ih =>
    cases rest with
    | nil => simp
    | cons next rest =>
      rw [List.flatMap_cons, ← ih, List.intercalate_cons_cons, List.filter_append,
        List.filter_append, List.filter_cons_of_neg (by simp [hblank]), List.filter_nil,
        List.append_nil]

/-- **The declarations of a file, by the lines with which they begin.** -/
theorem headings_fileLines (tools : List Tool) :
    (fileLines tools).filter (startsWith "export ") =
      (declarations tools).map Declaration.heading := by
  have hheader : header.filter (startsWith "export ") = [] := by decide
  rw [fileLines, filter_intercalate (by decide), List.flatMap_cons, hheader, List.nil_append,
    List.flatMap_map, List.map_eq_flatMap]
  exact List.flatMap_congr fun d _ => filter_lines d

end ToolShape.TypeScript
