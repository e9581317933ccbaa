import ToolShape.Proofs.Conversion.Contexts
import ToolShape.Proofs.TypeScript.Declaration

/-!
# Which declared names are identifiers

An alias is built from ASCII letters and digits, and is an identifier whatever the tool is called
(`identifier_aliasName`). The name of an interface is printed as it was generated, with its context
inside, and a context keeps most characters of a tool's or a field's name: spaces and hyphens of a
tool's name are replaced, and nothing else is.

> **The name of an interface is an identifier exactly when all characters of its context may stand
> in one** (`identifier_generated_iff`), and a dot may not (`dotted_tool_declares_no_identifier`).

So the names of a file are identifiers as long as tools and fields are called by characters that may
stand in one, up to spaces and hyphens in the names of tools (`declared_names`).
-/

set_option autoImplicit false

namespace ToolShape.TypeScript

open Name (Context generated)

/-- Which characters an identifier may begin with and which it may go on with. Beyond ASCII this is
a matter of tables, so it is left open there. -/
structure Alphabet where
  first : Char → Bool
  part : Char → Bool
  part_of_first : ∀ c, first c = true → part c = true
  first_of_letter : ∀ c, (c.isAlpha || c == '_' || c == '$') = true → first c = true
  part_of_digit : ∀ c, c.isDigit = true → part c = true
  not_part : [' ', '-', '.', '\x7b', '\x7d', '"', '\n', '\r'].all (!part ·) = true

namespace Alphabet

/-- ASCII letters and digits, underscores and dollar signs. -/
def ascii : Alphabet where
  first c := c.isAlpha || c == '_' || c == '$'
  part c := c.isAlpha || c == '_' || c == '$' || c.isDigit
  part_of_first := by
    intro c h
    rw [h, Bool.true_or]
  first_of_letter := fun _ h => h
  part_of_digit := by
    intro c h
    rw [h, Bool.or_true]
  not_part := by decide

variable (letters : Alphabet)

/-- A name that reads as one identifier. -/
def Identifier (name : String) : Prop :=
  ∃ c rest, name.toList = c :: rest ∧ letters.first c = true ∧ ∀ d ∈ rest, letters.part d = true

/-- A text of which every character may stand in an identifier. -/
def Clean (text : String) : Prop := text.toList.all letters.part = true

theorem clean_iff {text : String} :
    letters.Clean text ↔ ∀ c ∈ text.toList, letters.part c = true := List.all_eq_true

theorem clean_append_iff {text more : String} :
    letters.Clean (text ++ more) ↔ letters.Clean text ∧ letters.Clean more := by
  unfold Clean
  rw [String.toList_append, List.all_append, Bool.and_eq_true]

theorem part_of_plain {c : Char} (h : (c.isAlphanum || c == '_') = true) :
    letters.part c = true := by
  rcases Bool.or_eq_true _ _ |>.mp h with halphanum | hmark
  · rcases Bool.or_eq_true _ _ |>.mp halphanum with halpha | hdigit
    · apply letters.part_of_first
      apply letters.first_of_letter
      rw [halpha]
      rfl
    · exact letters.part_of_digit c hdigit
  · apply letters.part_of_first
    apply letters.first_of_letter
    rw [hmark, Bool.or_true]
    rfl

theorem clean_of_plain {text : String}
    (h : text.toList.all (fun c => c.isAlphanum || c == '_') = true) : letters.Clean text := by
  rw [clean_iff]
  intro c hc
  exact letters.part_of_plain (List.all_eq_true.mp h c hc)

/-- With a letter in front, a text is an identifier when it is clean. -/
theorem identifier_iff_clean {text : String} {c : Char} {rest : List Char}
    (htext : text.toList = c :: rest) (hc : c.isAlpha = true) :
    letters.Identifier text ↔ letters.Clean text := by
  have hfirst : letters.first c = true := by
    apply letters.first_of_letter
    rw [hc]
    rfl
  rw [clean_iff]
  constructor
  · rintro ⟨d, others, heq, hd, hothers⟩ e he
    rw [heq] at he
    rcases List.mem_cons.mp he with rfl | he
    · exact letters.part_of_first _ hd
    · exact hothers e he
  · intro h
    refine ⟨c, rest, htext, hfirst, ?_⟩
    intro d hd
    apply h
    rw [htext]
    exact List.mem_cons_of_mem c hd

end Alphabet

variable {letters : Alphabet}

/-! ## Aliases -/

theorem isAlphanum_iff {c : Char} :
    c.isAlphanum = true ↔
      (('A'.val ≤ c.val ∧ c.val ≤ 'Z'.val) ∨ ('a'.val ≤ c.val ∧ c.val ≤ 'z'.val)) ∨
        ('0'.val ≤ c.val ∧ c.val ≤ '9'.val) := by
  change ((decide ('A'.val ≤ c.val ∧ c.val ≤ 'Z'.val) ||
    (decide ('a'.val ≤ c.val) && decide (c.val ≤ 'z'.val))) ||
      (decide ('0'.val ≤ c.val) && decide (c.val ≤ '9'.val))) = true ↔ _
  simp only [Bool.or_eq_true, Bool.and_eq_true, decide_eq_true_eq]

/-- What holds of all ASCII characters holds of letters and digits. -/
theorem alphanum_induct {motive : Char → Prop} (h : ∀ n < 128, motive (Char.ofNat n)) {c : Char}
    (hc : c.isAlphanum = true) : motive c := by
  have hlt : c.toNat < 128 := by
    simp only [isAlphanum_iff, UInt32.le_iff_toNat_le] at hc
    have hZ : 'Z'.val.toNat = 90 := rfl
    have hz : 'z'.val.toNat = 122 := rfl
    have h9 : '9'.val.toNat = 57 := rfl
    have hval : c.toNat = c.val.toNat := rfl
    omega
  have hof := h c.toNat hlt
  rwa [Char.ofNat_toNat] at hof

theorem isAlphanum_toUpper {c : Char} (h : c.isAlphanum = true) : c.toUpper.isAlphanum = true :=
  alphanum_induct (motive := fun c => c.isAlphanum = true → c.toUpper.isAlphanum = true)
    (by decide +kernel) h h

theorem isAlphanum_of_mem_capitalized {c : Char} {text : List Char} {begins : Bool}
    (h : c ∈ Tool.Name.capitalized begins text) : c.isAlphanum = true := by
  induction text generalizing begins with
  | nil => cases h
  | cons d rest ih =>
    rw [Tool.Name.capitalized] at h
    split at h
    · next hd =>
      rcases List.mem_cons.mp h with rfl | hrest
      · split
        · exact isAlphanum_toUpper hd
        · exact hd
      · exact ih hrest
    · exact ih h

/-- A class name begins with a letter and goes on with letters and digits. -/
theorem className_spelling (name : Tool.Name) :
    ∃ c rest, name.className.toList = c :: rest ∧ c.isAlpha = true
      ∧ ∀ d ∈ rest, d.isAlphanum = true := by
  have hall : ∀ c ∈ Tool.Name.capitalized true name.text.toList, c.isAlphanum = true :=
    fun _ => isAlphanum_of_mem_capitalized
  have hool : ∀ c ∈ ['o', 'o', 'l'], c.isAlphanum = true := List.all_eq_true.mp (by decide)
  unfold Tool.Name.className
  cases hcapitalized : Tool.Name.capitalized true name.text.toList with
  | nil => exact ⟨'T', ['o', 'o', 'l'], rfl, rfl, hool⟩
  | cons c rest =>
    rw [hcapitalized, List.forall_mem_cons] at hall
    dsimp only
    split
    · refine ⟨'T', ['o', 'o', 'l'] ++ c :: rest, by simp, rfl, ?_⟩
      exact List.forall_mem_append.mpr ⟨hool, List.forall_mem_cons.mpr hall⟩
    · next hdigit =>
      refine ⟨c, rest, String.toList_ofList, ?_, hall.2⟩
      exact (Bool.or_eq_true _ _ |>.mp hall.1).resolve_right hdigit

/-- **An alias is an identifier**, whatever its tool is called. -/
theorem identifier_aliasName (tool : Tool) : letters.Identifier (aliasName tool) := by
  obtain ⟨c, rest, htext, hc, hrest⟩ := className_spelling tool.definition.name
  have hlist : (aliasName tool).toList = c :: (rest ++ "Args".toList) := by
    rw [aliasName, String.toList_append, htext, List.cons_append]
  apply (letters.identifier_iff_clean hlist hc).mpr
  apply letters.clean_of_plain
  rw [hlist, List.all_eq_true]
  intro d hd
  rcases List.mem_cons.mp hd with rfl | hd
  · simp [Char.isAlphanum, hc]
  · rcases List.mem_append.mp hd with hd | hd
    · simp [hrest d hd]
    · have hargs : "Args".toList.all fun c => c.isAlphanum || c == '_' := by decide
      exact List.all_eq_true.mp hargs d hd

/-! ## Interfaces -/

theorem isAlphanum_of_isHexDigit {c : Char} (h : Name.isHexDigit c = true) :
    c.isAlphanum = true := by
  simp only [Name.isHexDigit, Bool.or_eq_true, Bool.and_eq_true, decide_eq_true_eq,
    Char.le_def] at h
  rw [isAlphanum_iff]
  rcases h with hdigit | hletter
  · exact Or.inr hdigit
  · refine Or.inl (Or.inr ⟨hletter.1, ?_⟩)
    exact UInt32.le_trans hletter.2 (by decide)

theorem clean_suffix (suffix : Name.Suffix) : letters.Clean suffix.text := by
  rw [letters.clean_iff]
  intro c hc
  have hwell := suffix.wellFormed
  unfold Name.isSuffix at hwell
  rw [Bool.and_eq_true, List.all_eq_true] at hwell
  rw [Name.Suffix.text, String.toList_ofList] at hc
  apply letters.part_of_plain
  rw [isAlphanum_of_isHexDigit (hwell.2 c hc), Bool.true_or]

/-- **A generated name is an identifier when its context is clean**, and only then. -/
theorem identifier_generated_iff (context : Context) (suffix : Name.Suffix) :
    letters.Identifier (generated context suffix) ↔ letters.Clean context.text := by
  have hstem : (generated context suffix).toList =
      'G' :: ("enerated_" ++ context.text ++ "_" ++ suffix.text).toList := by
    simp [generated, Name.stem]
  rw [letters.identifier_iff_clean hstem rfl, generated, letters.clean_append_iff,
    letters.clean_append_iff, letters.clean_append_iff]
  constructor
  · rintro ⟨⟨⟨-, h⟩, -⟩, -⟩
    exact h
  · intro h
    exact ⟨⟨⟨letters.clean_of_plain (by decide), h⟩, letters.clean_of_plain (by decide)⟩,
      clean_suffix suffix⟩

theorem clean_item_iff {context : Context} :
    letters.Clean context.item.text ↔ letters.Clean context.text := by
  rw [Context.item, letters.clean_append_iff]
  exact and_iff_left (letters.clean_of_plain (by decide))

/-- Only spaces and hyphens of a tool's name are replaced in its context. -/
theorem clean_ofTool_iff {toolName : String} :
    letters.Clean (Context.ofTool toolName).text ↔
      toolName.toList.all (fun c => c == '-' || c == ' ' || letters.part c) = true := by
  rw [Context.ofTool, letters.clean_append_iff, and_iff_left (letters.clean_of_plain (by decide)),
    letters.clean_iff, Context.sanitize, String.toList_ofList, List.forall_mem_map,
    List.all_eq_true]
  refine forall₂_congr fun c _ => ?_
  split
  · next h =>
    have hreplaced : (c == '-' || c == ' ') = true := by simpa using h
    exact iff_of_true (letters.part_of_plain rfl) (by rw [hreplaced, Bool.true_or])
  · next h =>
    have hkept : (c == '-' || c == ' ') = false := by simpa using h
    rw [hkept, Bool.false_or]

/-! ## The file -/

/-- Tools and fields are called by characters that may stand in an identifier, up to spaces and
hyphens in the names of tools. -/
structure CleanlyCalled (letters : Alphabet) (tools : List Tool) : Prop where
  tool : ∀ tool ∈ tools,
    tool.name.toList.all (fun c => c == '-' || c == ' ' || letters.part c) = true
  field : ∀ tool ∈ tools, ∀ r ∈ tool.arguments.records, ∀ f ∈ r.fields,
    letters.Clean (Context.titleCase f.name)

theorem clean_of_origin {tools : List Tool} (h : CleanlyCalled letters tools) {tool : Tool}
    (ht : tool ∈ tools) {context : Context} (horigin : tool.Origin context) :
    letters.Clean context.text := by
  induction horigin with
  | name => exact clean_ofTool_iff.mpr (h.tool tool ht)
  | field hr hf => exact h.field tool ht _ hr _ hf
  | item _ ih => exact clean_item_iff.mpr ih

/-- Every name in the file is the name of a record of a tool. -/
theorem exists_record_of_mem_interfaceNames {tools : List Tool} {name : String}
    (h : name ∈ interfaceNames (declarations tools)) :
    ∃ tool ∈ tools, ∃ r ∈ tool.arguments.records, r.name = name := by
  obtain ⟨r, hr, hname⟩ := mem_interfaceNames_iff.mp h
  obtain ⟨tool, ht, hmem⟩ := List.mem_flatMap.mp hr
  refine ⟨tool, ht, r, ?_, hname⟩
  rw [RecordShape.records_eq]
  exact hmem

theorem uses_subset_interfaceNames {tools : List Tool} {d : Declaration}
    (h : d ∈ declarations tools) : d.uses ⊆ interfaceNames (declarations tools) := by
  obtain ⟨before, after, heq⟩ := List.append_of_mem h
  intro name hname
  have hbefore := ordered_declarationsFrom [] tools before d after heq hname
  rw [List.append_nil] at hbefore
  rw [heq, interfaceNames_append]
  exact List.mem_append_left _ hbefore

/-- **The names of a file of converted tools.** Aliases are identifiers; the name of an interface is
generated for some context and is an identifier exactly when that is clean; and types use no other
names. -/
theorem declared_names (letters : Alphabet) (tools : List Tool)
    (h : ∀ tool ∈ tools, tool.Converted) :
    (∀ tool ∈ tools, letters.Identifier (aliasName tool)) ∧
      (∀ d ∈ declarations tools, d.uses ⊆ interfaceNames (declarations tools)) ∧
      (∀ name ∈ interfaceNames (declarations tools), ∃ tool ∈ tools, ∃ context suffix,
        tool.Origin context ∧ name = generated context suffix ∧
          (letters.Identifier name ↔ letters.Clean context.text)) ∧
      (CleanlyCalled letters tools →
        ∀ name ∈ interfaceNames (declarations tools), letters.Identifier name) := by
  have hnames : ∀ name ∈ interfaceNames (declarations tools), ∃ tool ∈ tools, ∃ context suffix,
      tool.Origin context ∧ name = generated context suffix := by
    intro name hname
    obtain ⟨tool, ht, r, hr, rfl⟩ := exists_record_of_mem_interfaceNames hname
    obtain ⟨context, suffix, horigin, hgenerated⟩ := (h tool ht).exists_origin r hr
    exact ⟨tool, ht, context, suffix, horigin, hgenerated⟩
  refine ⟨fun tool _ => identifier_aliasName tool, fun d => uses_subset_interfaceNames, ?_, ?_⟩
  · intro name hname
    obtain ⟨tool, ht, context, suffix, horigin, rfl⟩ := hnames name hname
    exact ⟨tool, ht, context, suffix, horigin, rfl, identifier_generated_iff context suffix⟩
  · intro hclean name hname
    obtain ⟨tool, ht, context, suffix, horigin, rfl⟩ := hnames name hname
    exact (identifier_generated_iff context suffix).mpr (clean_of_origin hclean ht horigin)

/-- A tool with a hyphen in its name, and with an object among its properties. -/
theorem declared_names_for_get_weather :
    let city : Json := .obj [("type", .str "object"),
      ("properties", .obj [("city", .obj [("type", .str "string")])])]
    let definition : Tool.Definition :=
      ⟨⟨"get-weather", by decide⟩, "", .obj [("properties", .obj [("place", city)])]⟩
    let tool := (Tool.convert ⟨.counting 0, 64⟩ definition 0).value
    tool.Converted ∧ CleanlyCalled .ascii [tool] ∧
      interfaceNames (declarations [tool]) =
        ["Generated_Place_00000000", "Generated_get_weatherSchema_00000001"] ∧
      ∀ name ∈ interfaceNames (declarations [tool]), Alphabet.ascii.Identifier name := by
  intro city definition tool
  have hconverted : tool.Converted := ⟨⟨.counting 0, 64⟩, 0, rfl⟩
  have hclean : CleanlyCalled .ascii [tool] := by
    constructor
    · decide +kernel
    · unfold Alphabet.Clean
      decide +kernel
  have hall : ∀ t ∈ [tool], t.Converted := by
    intro t ht
    rwa [List.mem_singleton.mp ht]
  obtain ⟨-, -, -, hidentifiers⟩ := declared_names .ascii [tool] hall
  exact ⟨hconverted, hclean, by decide +kernel, hidentifiers hclean⟩

/-- **A dot in a tool's name comes through**: under no reading of letters are all names of all files
identifiers. -/
theorem dotted_tool_declares_no_identifier :
    let definition : Tool.Definition :=
      ⟨⟨"files.read", by decide⟩, "", Tool.Definition.emptySchema⟩
    let tool := (Tool.convert ⟨.counting 0, 64⟩ definition 0).value
    interfaceNames (declarations [tool]) = ["Generated_files.readSchema_00000000"] ∧
      ¬ ∃ letters : Alphabet, ∀ tools : List Tool, (∀ tool ∈ tools, tool.Converted) →
        ∀ name ∈ interfaceNames (declarations tools), letters.Identifier name := by
  intro definition tool
  have hconverted : ∀ t ∈ [tool], t.Converted := by
    intro t ht
    rw [List.mem_singleton.mp ht]
    exact ⟨⟨.counting 0, 64⟩, 0, rfl⟩
  have hnames : interfaceNames (declarations [tool]) = ["Generated_files.readSchema_00000000"] := by
    decide +kernel
  refine ⟨hnames, ?_⟩
  rintro ⟨letters, h⟩
  have hname := h [tool] hconverted "Generated_files.readSchema_00000000" (by simp [hnames])
  obtain ⟨c, rest, htext, -, hrest⟩ := hname
  have hdot : '.' ∈ rest := by
    have htail : rest = "Generated_files.readSchema_00000000".toList.tail := by
      rw [htext, List.tail_cons]
    rw [htail]
    decide
  have hpart := List.all_eq_true.mp letters.not_part '.' (by decide)
  rw [hrest '.' hdot] at hpart
  cases hpart

end ToolShape.TypeScript
