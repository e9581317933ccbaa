import ToolShape.Proofs.Conversion.Contexts
import ToolShape.Proofs.Json.Flat
import ToolShape.Proofs.Name.Contexts
import ToolShape.Tool.Summary

/-!
# The lines of a summary

A summary is put together from one text for the tool and one for each field. These are lines only as
long as no line feed is in them, and some of what they show is printed as it is: the name of the
tool, the names of the fields, and the strings that a schema has for its description, its format,
its pattern and its bounds (`Schema.rawTexts`). All else is JSON text or made of names.

> **A summary has one line for the tool and one for each field exactly when none of these texts holds
> a line feed** (`Tool.lines_of_summary`), and a description of two lines breaks the summary
> (`Tool.description_breaks_summary`).
-/

set_option autoImplicit false

namespace ToolShape

open Json (Fields)
open Name (Context)
open Text (OneLine oneLine_append_iff oneLine_intercalate_iff)

/-! ## Types -/

theorem oneLine_quoteAll {separator : String} (h : OneLine separator) (values : List String) :
    OneLine (quoteAll separator values) := by
  refine (oneLine_intercalate_iff h).mpr ?_
  intro text htext
  obtain ⟨value, -, rfl⟩ := List.mem_map.mp htext
  exact (Json.flat_quote value).oneLine

/-- A type is on one line when it is named for a context that is. -/
theorem Shape.NamedFor.oneLine_text {context : Context} {s : Shape} (h : s.NamedFor context)
    (hcontext : OneLine context.text) : OneLine s.text := by
  induction h with
  | unknown => decide
  | scalar _ kind => cases kind <;> decide
  | literal _ values =>
    refine oneLine_append_iff.mpr ⟨oneLine_append_iff.mpr ⟨by decide, ?_⟩, by decide⟩
    exact oneLine_quoteAll (by decide) values
  | sequence _ ih =>
    refine oneLine_append_iff.mpr ⟨oneLine_append_iff.mpr ⟨by decide, ?_⟩, by decide⟩
    exact ih (Name.oneLine_item hcontext)
  | mapping => decide
  | record suffix => exact Name.oneLine_generated_iff.mpr hcontext
  | union _ ih =>
    rw [Shape.text, Shape.textOfAll_eq_map]
    refine (oneLine_intercalate_iff (by decide)).mpr ?_
    intro text htext
    obtain ⟨s, hs, rfl⟩ := List.mem_map.mp htext
    exact ih s hs hcontext

theorem Shape.NamedFor.of_record {context : Context} {r : RecordShape}
    (h : (Shape.record r).NamedFor context) :
    (∃ suffix, r.name = Name.generated context suffix) ∧
      ∀ f ∈ r.fields, f.shape.NamedFor (Context.ofField f.name) := by
  cases h with
  | record suffix inner => exact ⟨⟨suffix, rfl⟩, inner⟩

/-! ## Descriptions -/

namespace Schema

/-- The keywords of which a description shows a string as it is. -/
def rawKeywords : List String :=
  ["description", "format", "pattern", "minimum", "maximum", "minLength", "maxLength"]

/-- The strings of a schema that its description shows as they are. -/
def rawTexts (schema : Json) : List String :=
  rawKeywords.filterMap fun keyword => (schema.get? keyword).bind Json.asString?

theorem oneLine_plain_iff (v : Json) : OneLine (plain v) ↔ ∀ text ∈ v.asString?, OneLine text := by
  cases v with
  | str s => simp [plain, Json.asString?]
  | _ => simp [plain, Json.asString?, (Json.flat_compact _).oneLine]

/-- A part with a label is on one line when what it shows is. -/
theorem oneLine_part_iff {label : String} (hlabel : OneLine label) (v : Json) :
    OneLine (label ++ ": " ++ plain v) ↔ ∀ text ∈ v.asString?, OneLine text := by
  have hmark : OneLine ": " := by decide
  rw [oneLine_append_iff, oneLine_append_iff, oneLine_plain_iff]
  exact and_iff_right ⟨hlabel, hmark⟩

theorem oneLine_labelled_iff {label : String} (hlabel : OneLine label) (v : Option Json) :
    (∀ part ∈ labelled label v, OneLine part) ↔ ∀ text ∈ v.bind Json.asString?, OneLine text := by
  cases v with
  | none => simp [labelled]
  | some v =>
    rw [labelled, Option.bind_some]
    split
    · rw [List.forall_mem_singleton]
      exact oneLine_part_iff hlabel v
    · next hnot =>
      -- Of strings, only the empty one does not count as given.
      refine iff_of_true (by simp) ?_
      intro text htext
      cases v with
      | str s =>
        cases htext
        have hempty : text = "" := by simpa [Json.isTruthy] using hnot
        rw [hempty]
        decide
      | _ => cases htext

theorem oneLine_bound_iff {label : String} (hlabel : OneLine label) (v : Option Json) :
    (∀ part ∈ bound label v, OneLine part) ↔ ∀ text ∈ v.bind Json.asString?, OneLine text := by
  cases v with
  | none => simp [bound]
  | some v =>
    rw [bound, Option.bind_some]
    split
    · next hnull =>
      refine iff_of_true (by simp) ?_
      intro text htext
      cases v with
      | null => cases htext
      | _ => cases hnull
    · rw [List.forall_mem_singleton]
      exact oneLine_part_iff hlabel v

theorem oneLine_ownWords_iff (v : Option Json) :
    (∀ part ∈ ownWords v, OneLine part) ↔ ∀ text ∈ v.bind Json.asString?, OneLine text := by
  unfold ownWords
  cases v.bind Json.asString? with
  | none => simp
  | some s =>
    by_cases hs : s = ""
    · subst hs
      simpa using (by decide : OneLine "")
    · simp [hs]

/-- Samples are shown as JSON text. -/
theorem oneLine_samples {label opening closing : String} (hlabel : OneLine label)
    (hopening : OneLine opening) (hclosing : OneLine closing) (limit : Option Nat)
    (v : Option Json) : ∀ part ∈ samples label opening closing limit v, OneLine part := by
  have hvalues : ∀ values, OneLine (valueList values) := by
    intro values
    refine (oneLine_intercalate_iff (by decide)).mpr ?_
    intro text htext
    obtain ⟨value, -, rfl⟩ := List.mem_map.mp htext
    exact (Json.flat_compact value).oneLine
  have hmark : OneLine ": " := by decide
  intro part hpart
  unfold samples at hpart
  split at hpart
  · rw [List.mem_singleton.mp hpart]
    simp only [oneLine_append_iff, hlabel, hmark, hopening, hclosing, hvalues, and_self]
  · cases hpart

/-- **A description is on one line exactly when the strings that it shows as they are are.** -/
theorem oneLine_describe_iff (schema : Json) :
    OneLine (describe schema) ↔ ∀ text ∈ rawTexts schema, OneLine text := by
  have hraw : (∀ text ∈ rawTexts schema, OneLine text) ↔ ∀ keyword ∈ rawKeywords,
      ∀ text ∈ (schema.get? keyword).bind Json.asString?, OneLine text := by
    unfold rawTexts
    simp only [List.mem_filterMap]
    constructor
    · exact fun h keyword hkeyword text htext => h text ⟨keyword, hkeyword, htext⟩
    · rintro h text ⟨keyword, hkeyword, htext⟩
      exact h keyword hkeyword text htext
  rw [hraw]
  cases schema with
  | obj fields =>
    have henum := oneLine_samples (by decide : OneLine "Allowed values") (by decide : OneLine "[")
      (by decide : OneLine "]") none (Fields.get? fields "enum")
    have hexamples := oneLine_samples (by decide : OneLine "Examples") (by decide : OneLine "")
      (by decide : OneLine "") (some exampleLimit) (Fields.get? fields "examples")
    rw [describe, oneLine_intercalate_iff (by decide), descriptionParts]
    simp only [List.forall_mem_append, rawKeywords, List.forall_mem_cons]
    rw [oneLine_ownWords_iff, oneLine_labelled_iff (by decide), oneLine_labelled_iff (by decide),
      oneLine_bound_iff (by decide), oneLine_bound_iff (by decide), oneLine_bound_iff (by decide),
      oneLine_bound_iff (by decide)]
    simp only [List.not_mem_nil, false_implies, implies_true, and_true, and_assoc]
    constructor
    · rintro ⟨hdescription, hformat, -, hpattern, hminimum, hmaximum, hminLength, hmaxLength, -⟩
      exact ⟨hdescription, hformat, hpattern, hminimum, hmaximum, hminLength, hmaxLength⟩
    · rintro ⟨hdescription, hformat, hpattern, hminimum, hmaximum, hminLength, hmaxLength⟩
      exact ⟨hdescription, hformat, henum, hpattern, hminimum, hmaximum, hminLength, hmaxLength,
        hexamples⟩
  | _ =>
    refine iff_of_true (show OneLine "" by decide) ?_
    intro keyword _ text htext
    cases htext

end Schema

/-! ## Fields -/

/-- **A field is on one line exactly when its name and its description are**; its type adds no line
feed of its own. -/
theorem FieldShape.oneLine_summary_iff {f : FieldShape}
    (hnamed : f.shape.NamedFor (Context.ofField f.name)) :
    OneLine f.summary ↔ OneLine f.name ∧ OneLine f.description := by
  have hdescription : OneLine (if f.description = "" then "" else " - " ++ f.description) ↔
      OneLine f.description := by
    split
    · next hempty => rw [hempty]
    · rw [oneLine_append_iff]
      exact and_iff_right (by decide)
  have hmark : OneLine (if f.required then "required" else "optional") := by
    split <;> decide
  have hindent : OneLine "  " := by decide
  have hcolon : OneLine ": " := by decide
  have hopening : OneLine " (" := by decide
  have hclosing : OneLine ")" := by decide
  unfold summary
  simp only [oneLine_append_iff, hdescription, hmark, hindent, hcolon, hopening, hclosing, true_and,
    and_true]
  constructor
  · exact fun h => ⟨h.1.1, h.2⟩
  · exact fun h => ⟨⟨h.1, hnamed.oneLine_text (Name.oneLine_ofField h.1)⟩, h.2⟩

namespace Converter

theorem describedBy_resolveFields (resolution : Resolution) (required : List String)
    (properties : Fields) (position : Nat) :
    (resolveFields resolution required properties position).value.map
        (fun f => (f.name, f.description)) =
      properties.map fun p => (p.1, Schema.describe p.2) := by
  induction properties generalizing position with
  | nil => rfl
  | cons p rest ih =>
    obtain ⟨name, schema⟩ := p
    rw [resolveFields_cons, List.map_cons, List.map_cons, ih]
    unfold field
    split <;> rfl

end Converter

/-! ## Tools -/

namespace Tool

/-- What a summary is put together from: a text for the tool, and one for each field. -/
def summaryLines (tool : Tool) : List String :=
  (tool.name ++ " -> " ++ tool.arguments.name) ::
    if tool.arguments.fields.isEmpty then [noArguments]
    else tool.arguments.fields.map FieldShape.summary

/-- The properties a tool's arguments are made from. -/
def Definition.properties (definition : Definition) : Fields :=
  Schema.override [] (Schema.properties definition.schema)

/-- Whether no text that a summary prints as it is holds a line feed. -/
def Definition.PrintsOneLine (definition : Definition) : Prop :=
  OneLine definition.name.text ∧
    ∀ p ∈ definition.properties, OneLine p.1 ∧ ∀ text ∈ Schema.rawTexts p.2, OneLine text

theorem lines_summary (tool : Tool) :
    Text.lines tool.summary = tool.summaryLines.flatMap Text.lines := by
  rw [summary, Text.lines_append_feed, summaryLines, List.flatMap_cons]
  congr 1
  split
  · rw [List.flatMap_singleton]
  · next hsome =>
    have hne : tool.arguments.fields.map FieldShape.summary ≠ [] := by simpa using hsome
    exact Text.lines_intercalate hne

theorem length_summaryLines (tool : Tool) :
    tool.summaryLines.length = 1 + max 1 tool.arguments.fields.length := by
  unfold summaryLines
  cases tool.arguments.fields with
  | nil => rfl
  | cons f rest =>
    simp
    omega

theorem oneLine_tail_summaryLines_iff (tool : Tool) :
    (∀ line ∈ tool.summaryLines.tail, OneLine line) ↔
      ∀ f ∈ tool.arguments.fields, OneLine f.summary := by
  rw [summaryLines, List.tail_cons]
  cases tool.arguments.fields with
  | nil => exact iff_of_true (by decide) (by simp)
  | cons f rest => exact List.forall_mem_map

/-- Below the line for the tool, all lines are indented. -/
theorem indented_summaryLines (tool : Tool) :
    ∀ line ∈ tool.summaryLines.tail, [' ', ' '] <+: line.toList := by
  intro line hline
  rw [summaryLines, List.tail_cons] at hline
  split at hline
  · rw [List.mem_singleton.mp hline]
    decide
  · obtain ⟨f, -, rfl⟩ := List.mem_map.mp hline
    unfold FieldShape.summary
    simp only [String.toList_append, List.append_assoc]
    exact List.prefix_append _ _

section

variable (converter : Converter) (definition : Definition) (position : Nat)

theorem described_convert :
    (convert converter definition position).value.arguments.fields.map
        (fun f => (f.name, f.description)) =
      definition.properties.map fun p => (p.1, Schema.describe p.2) :=
  Converter.describedBy_resolveFields _ _ _ _

theorem namedFor_arguments_convert :
    (∃ suffix, (convert converter definition position).value.arguments.name =
      Name.generated (Context.ofTool definition.name.text) suffix) ∧
    ∀ f ∈ (convert converter definition position).value.arguments.fields,
      f.shape.NamedFor (Context.ofField f.name) :=
  (converter.namedFor_convert definition.name.text definition.schema position).of_record

/-- The fields of a summary are on one line each exactly when the texts of the properties are. -/
theorem oneLine_fields_iff :
    (∀ f ∈ (convert converter definition position).value.arguments.fields, OneLine f.summary) ↔
      ∀ p ∈ definition.properties, OneLine p.1 ∧ ∀ text ∈ Schema.rawTexts p.2, OneLine text := by
  have hdescribed := described_convert converter definition position
  obtain ⟨-, hnamed⟩ := namedFor_arguments_convert converter definition position
  generalize (convert converter definition position).value.arguments.fields = fields
    at hdescribed hnamed
  have hsummary : (∀ f ∈ fields, OneLine f.summary) ↔
      ∀ f ∈ fields, OneLine f.name ∧ OneLine f.description :=
    forall₂_congr fun f hf => f.oneLine_summary_iff (hnamed f hf)
  have hpairs : (∀ f ∈ fields, OneLine f.name ∧ OneLine f.description) ↔
      ∀ q ∈ fields.map (fun f => (f.name, f.description)), OneLine q.1 ∧ OneLine q.2 := by
    simp only [List.forall_mem_map]
  rw [hsummary, hpairs, hdescribed]
  simp only [List.forall_mem_map, Schema.oneLine_describe_iff]

/-- All parts of a summary are on one line exactly when the texts are that it prints as they are. -/
theorem oneLine_summaryLines_iff :
    (∀ line ∈ (convert converter definition position).value.summaryLines, OneLine line) ↔
      definition.PrintsOneLine := by
  obtain ⟨⟨suffix, hname⟩, -⟩ := namedFor_arguments_convert converter definition position
  have hheader : OneLine (definition.name.text ++ " -> " ++
      (convert converter definition position).value.arguments.name) ↔
      OneLine definition.name.text := by
    rw [hname, oneLine_append_iff, oneLine_append_iff, Name.oneLine_generated_iff]
    constructor
    · exact fun h => h.1.1
    · exact fun h => ⟨⟨h, by decide⟩, Name.oneLine_ofTool h⟩
  have hbody := oneLine_tail_summaryLines_iff (convert converter definition position).value
  rw [oneLine_fields_iff] at hbody
  rw [summaryLines, List.forall_mem_cons]
  exact and_congr hheader hbody

end

/-- **A summary has one line for the tool and one for each field**, or one in place of fields when
there are none, exactly when no text that it prints as it is holds a line feed. What enumerations
and examples hold does not matter, nor does the converter. -/
theorem lines_of_summary (converter : Converter) (definition : Definition) (position : Nat) :
    let tool := (convert converter definition position).value
    let lines := Text.lines tool.summary
    tool.arguments.fieldNames = definition.properties.keys ∧
      (lines.length = 1 + max 1 definition.properties.length ↔ definition.PrintsOneLine) ∧
      (definition.PrintsOneLine →
        lines = tool.summaryLines ∧ ∀ line ∈ lines.tail, [' ', ' '] <+: line.toList) := by
  intro tool lines
  have hiff : (∀ line ∈ tool.summaryLines, OneLine line) ↔ definition.PrintsOneLine :=
    oneLine_summaryLines_iff converter definition position
  have hlines : lines = tool.summaryLines.flatMap Text.lines := lines_summary tool
  have hdescribed := described_convert converter definition position
  have hcount : tool.arguments.fields.length = definition.properties.length := by
    simpa using congrArg List.length hdescribed
  refine ⟨?_, ?_, ?_⟩
  · have hnames := congrArg (List.map Prod.fst) hdescribed
    rwa [List.map_map, List.map_map] at hnames
  · rw [hlines, ← hcount, ← length_summaryLines, Text.length_flatMap_lines_eq_iff, hiff]
  · intro hprints
    have hself : lines = tool.summaryLines := by
      rw [hlines, Text.flatMap_lines_eq_self (hiff.mpr hprints)]
    rw [hself]
    exact ⟨rfl, indented_summaryLines tool⟩

/-- Line feeds in an enumeration, in an example and in the name of a nested field. -/
theorem lines_of_summary_for_search :
    let order : Json := .obj [("enum", .arr [.str "up\n", .str "down"]),
      ("examples", .arr [.str "\n"])]
    let tags : Json := .obj [("type", .str "array"),
      ("items", .obj [("type", .str "object"), ("properties", .obj [("a\nb", .obj [])])])]
    let schema : Json := .obj [("properties", .obj [("order", order), ("tags", tags)]),
      ("required", .arr [.str "order"])]
    let definition : Definition := ⟨⟨"search", by decide⟩, "Searches\nall", schema⟩
    let tool := (convert ⟨.counting 0, 64⟩ definition 0).value
    definition.PrintsOneLine ∧ Text.lines tool.summary =
      ["search -> Generated_searchSchema_00000001",
        "  order: literal[\"up\\n\", \"down\"] (required)"
          ++ " - Allowed values: [\"up\\n\", \"down\"]. Examples: \"\\n\"",
        "  tags: array<Generated_TagsItem_00000000> | null (optional)"] := by
  intro order tags schema definition tool
  have hprints : definition.PrintsOneLine := by
    unfold Definition.PrintsOneLine
    decide +kernel
  obtain ⟨-, -, hlines⟩ := lines_of_summary ⟨.counting 0, 64⟩ definition 0
  refine ⟨hprints, (hlines hprints).1.trans ?_⟩
  decide +kernel

/-- **A description of two lines breaks the summary**: one field takes two lines, and the second one
is not indented. -/
theorem description_breaks_summary :
    let q : Json := .obj [("type", .str "string"), ("description", .str "first\nsecond")]
    let schema : Json := .obj [("properties", .obj [("q", q)]), ("required", .arr [.str "q"])]
    let definition : Definition := ⟨⟨"ping", by decide⟩, "", schema⟩
    let tool := (convert ⟨.counting 0, 64⟩ definition 0).value
    tool.arguments.fieldNames = ["q"] ∧
      Text.lines tool.summary =
        ["ping -> Generated_pingSchema_00000000", "  q: string (required) - first", "second"] ∧
      (Text.lines tool.summary).length ≠ 1 + tool.arguments.fields.length := by
  decide +kernel

end Tool

end ToolShape
