import ToolShape.Proofs.TypeScript.Identifier
import ToolShape.Proofs.TypeScript.Interface

/-!
# The file of declarations

What a file declares, and how it is written, put together.

> **Every name is declared once, in the order of first occurrence and before it is used, and the
> text of the file reads so, line by line** (`TypeScript.declares_in_order`).

The file is made up of lines, and its text has these lines as long as none of them is broken. Only
the names of records are printed as they are, so a line is broken exactly when one of them holds a
line feed (`TypeScript.lines_render_iff`).
-/

set_option autoImplicit false

namespace ToolShape.TypeScript

open Text (Flat OneLine flat_append_iff)

/-! ## Lines that stay whole -/

theorem flat_aliasName (tool : Tool) : Flat (aliasName tool) := by
  obtain ⟨c, rest, htext, hc, hrest⟩ := className_spelling tool.definition.name
  refine flat_append_iff.mpr ⟨fun d hd => visible_of_isPart ?_, by decide⟩
  rw [htext] at hd
  rcases List.mem_cons.mp hd with rfl | hd
  · simp [isPart, Char.isAlphanum, hc]
  · simp [isPart, hrest d hd]

theorem mem_aliasLine {name target : String} (hname : Flat name) {c : Char} (hc : c.toNat < 32)
    (h : c ∈ (aliasLine name target).toList) : c ∈ target.toList := by
  have hfixed : ∀ text : String, Flat text → c ∉ text.toList := fun _ htext => htext.not_mem hc
  unfold aliasLine at h
  simp only [String.toList_append, List.mem_append, hfixed "export type " (by decide),
    hfixed name hname, hfixed " = " (by decide), hfixed ";" (by decide), false_or, or_false] at h
  exact h

theorem exists_aliasName_eq {tools : List Tool} {name target : String}
    (h : .synonym name target ∈ declarations tools) : ∃ tool ∈ tools, aliasName tool = name := by
  have hmem : (name, target) ∈ (declarations tools).filterMap Declaration.synonym? :=
    List.mem_filterMap.mpr ⟨_, h, rfl⟩
  rw [declarations, synonyms_declarationsFrom] at hmem
  obtain ⟨tool, htool, heq⟩ := List.mem_map.mp hmem
  exact ⟨tool, htool, congrArg Prod.fst heq⟩

/-- **What could break a line of the file stands in a name that is declared.** -/
theorem exists_interfaceName_of_feed {tools : List Tool} {line : String}
    (hline : line ∈ fileLines tools) (hfeed : '\n' ∈ line.toList) :
    ∃ name ∈ interfaceNames (declarations tools), '\n' ∈ name.toList := by
  rcases Text.mem_or_exists_of_mem_intercalate hline with hblank | ⟨part, hpart, hmem⟩
  · rw [List.mem_singleton.mp hblank] at hfeed
    cases hfeed
  rcases List.mem_cons.mp hpart with rfl | hdeclared
  · have hheader : ∀ line ∈ header, OneLine line := by decide
    exact absurd hfeed (hheader line hmem)
  obtain ⟨d, hd, rfl⟩ := List.mem_map.mp hdeclared
  have huses := uses_subset_interfaceNames hd
  cases d with
  | interface r =>
    obtain ⟨name, hname, hin⟩ :=
      exists_name_of_mem_interfaceLines (by decide) (by decide) hmem hfeed
    rcases List.mem_cons.mp hname with rfl | hused
    · exact ⟨r.name, List.mem_map_of_mem (List.mem_filterMap.mpr ⟨_, hd, rfl⟩), hin⟩
    · exact ⟨name, huses hused, hin⟩
  | synonym name target =>
    obtain ⟨tool, -, rfl⟩ := exists_aliasName_eq hd
    rw [List.mem_singleton.mp hmem] at hfeed
    have hin : '\n' ∈ target.toList := mem_aliasLine (flat_aliasName tool) (by decide) hfeed
    exact ⟨target, huses (List.mem_singleton_self target), hin⟩

theorem heading_mem_fileLines {tools : List Tool} {d : Declaration} (h : d ∈ declarations tools) :
    d.heading ∈ fileLines tools := by
  have hmem : d.heading ∈ (fileLines tools).filter (startsWith "export ") := by
    rw [headings_fileLines]
    exact List.mem_map_of_mem h
  exact List.mem_of_mem_filter hmem

theorem oneLine_fileLines_iff {tools : List Tool} :
    (∀ line ∈ fileLines tools, OneLine line) ↔
      ∀ r ∈ tools.flatMap Tool.records, OneLine r.name := by
  constructor
  · intro h r hr hfeed
    obtain ⟨s, hs, hname⟩ := List.mem_map.mp (mem_interfaceNames_iff.mpr ⟨r, hr, rfl⟩)
    obtain ⟨d, hd, hrecord⟩ := List.mem_filterMap.mp hs
    cases d with
    | synonym name target => cases hrecord
    | interface t =>
      cases hrecord
      -- The first line of the interface shows the name.
      have hopening : OneLine (opening s) := h _ (heading_mem_fileLines hd)
      unfold opening at hopening
      rw [Text.oneLine_append_iff, Text.oneLine_append_iff] at hopening
      rw [← hname] at hfeed
      exact hopening.1.2 hfeed
  · intro h line hline hfeed
    obtain ⟨name, hname, hin⟩ := exists_interfaceName_of_feed hline hfeed
    obtain ⟨r, hr, rfl⟩ := mem_interfaceNames_iff.mp hname
    exact h r hr hin

theorem lines_render (tools : List Tool) :
    Text.lines (render tools) = (fileLines tools).flatMap Text.lines ++ [""] := by
  have hne : fileLines tools ≠ [] := by
    unfold fileLines
    cases declarations tools with
    | nil => simp [header]
    | cons d rest => simp [header, List.intercalate_cons_cons]
  have hlast := Text.lines_append_feed ("\n".intercalate (fileLines tools)) ""
  rw [String.append_empty, Text.lines_intercalate hne] at hlast
  rw [render, join_map_feed hne, hlast]
  rfl

/-- **The text of the file has the lines it was made from** exactly when no record is called by a
name with a line feed. Behind the last line feed there is nothing. -/
theorem lines_render_iff (tools : List Tool) :
    Text.lines (render tools) = fileLines tools ++ [""] ↔
      ∀ r ∈ tools.flatMap Tool.records, OneLine r.name := by
  rw [lines_render, List.append_left_inj, ← oneLine_fileLines_iff]
  constructor
  · intro h
    exact Text.length_flatMap_lines_eq_iff.mp (congrArg List.length h)
  · exact Text.flatMap_lines_eq_self

/-! ## The whole file -/

/-- How the declarations read in the lines of the file. -/
structure SpellsDeclarations (tools : List Tool) : Prop where
  headings_eq : (fileLines tools).filter (startsWith "export ") =
    (declarations tools).map Declaration.heading
  members_eq : ∀ r ∈ interfaces (declarations tools),
    membersIn (interfaceLines r) = r.fields.map memberLine
  marked_iff : ∀ f, startsWith ("    " ++ key f.name ++ "?") (memberLine f) = true ↔
    f.required = false
  /-- The lines are those of the text, unless the name of a record breaks one. -/
  lines_iff : Text.lines (render tools) = fileLines tools ++ [""] ↔
    ∀ r ∈ tools.flatMap Tool.records, OneLine r.name

/-- **Every name is declared once, in the order of first occurrence, and before it is used**, and
the text of the file reads so, line by line. -/
theorem declares_in_order (tools : List Tool) :
    DeclaresInOrder tools ∧ SpellsDeclarations tools :=
  ⟨declaresInOrder tools, headings_fileLines tools, fun r _ => membersIn_interfaceLines r,
    startsWith_memberLine_iff, lines_render_iff tools⟩

/-- A list of records, each with an optional record of its own, and the text of their file. -/
theorem declares_in_order_for_nested_records :
    let inner : RecordShape := ⟨"Inner", []⟩
    let outer : RecordShape := ⟨"Outer", [⟨"inner", .union [.record inner, .null], false, ""⟩]⟩
    let arguments : RecordShape := ⟨"Top", [⟨"all", .sequence (.record outer), true, ""⟩]⟩
    let tool : Tool := ⟨⟨⟨"list", by decide⟩, "", Tool.Definition.emptySchema⟩, arguments⟩
    ((Tool.records tool).map RecordShape.name).Nodup ∧
      interfaces (declarations [tool]) = [inner, outer, arguments] ∧
      Text.lines (render [tool]) = header ++
        ["", "export interface Inner \x7b\x7d",
          "", "export interface Outer \x7b", "    inner?: Inner | null;", "\x7d",
          "", "export interface Top \x7b", "    all: Array<Outer>;", "\x7d",
          "", "export type ListArgs = Top;", ""] := by
  intro inner outer arguments tool
  have hrecords : [tool].flatMap Tool.records = [inner, outer, arguments] := by
    rfl
  have hnodup : (([tool].flatMap Tool.records).map RecordShape.name).Nodup := by
    rw [hrecords]
    decide
  obtain ⟨hdeclares, hspells⟩ := declares_in_order [tool]
  have hone := hdeclares.one_per_record hnodup
  have hlines := hspells.lines_iff.mpr (by
    rw [hrecords]
    simp only [List.forall_mem_cons]
    decide)
  rw [hrecords] at hone
  rw [List.flatMap_singleton] at hnodup
  refine ⟨hnodup, hone, hlines.trans ?_⟩
  decide +kernel

end ToolShape.TypeScript
