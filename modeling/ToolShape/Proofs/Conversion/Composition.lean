import ToolShape.Proofs.Conversion.Steps
import ToolShape.Proofs.Schema.Merge

/-!
# Resolving an `allOf`

> **A node that its `allOf` decides resolves as the object of its combined properties**
> (`Converter.resolve_composition`), with the same names, draws and events; without properties it
> is a list or an object, as the last `type` says.

The second result is about which fields are required. A field is, as soon as any branch lists its
name, wherever the name was declared. That variants only ever add optional fields is therefore
true of some nodes only, and `Converter.required_of_composition` says of which: those that require
no name that is declared by variants alone.
-/

set_option autoImplicit false

namespace ToolShape

open Json (Fields)
open Name (Context)

namespace Schema

/-- A branch or a variant has a property of the given name. -/
def Declares (node : Json) (name : String) : Prop := name ∈ (properties node).keys

/-- A branch lists a name among its required ones. -/
def Requires (branch : Json) (name : String) : Prop :=
  name ∈ requiredNames (branch.get? "required")

/-- Exactly those fields are required that some branch declares for itself and some branch lists.
So whatever only variants declare stays optional. -/
def VariantsStayOptional (branches : List Json) (fields : List FieldShape) : Prop :=
  ∀ f ∈ fields, f.required = true ↔
    (∃ branch ∈ branches, Declares branch f.name) ∧ ∃ branch ∈ branches, Requires branch f.name

instance (node : Json) (name : String) : Decidable (Declares node name) :=
  inferInstanceAs (Decidable (name ∈ (properties node).keys))

instance (branch : Json) (name : String) : Decidable (Requires branch name) :=
  inferInstanceAs (Decidable (name ∈ requiredNames (branch.get? "required")))

instance (branches : List Json) (fields : List FieldShape) :
    Decidable (VariantsStayOptional branches fields) :=
  inferInstanceAs (Decidable (∀ f ∈ fields, _ ↔ _))

theorem mem_sightings_iff {branches : List Json} {name : String} :
    name ∈ sightings branches ↔ (∃ branch ∈ branches, Declares branch name) ∨
      ∃ branch ∈ branches, ∃ variant ∈ variants branch, Declares variant name := by
  simp only [sightings, sightingsIn, List.mem_flatMap, List.mem_append, Declares, and_or_left,
    exists_or]

theorem mem_mergedRequired_iff {branches : List Json} {name : String} :
    name ∈ mergedRequired branches ↔ ∃ branch ∈ branches, Requires branch name :=
  List.mem_flatMap

end Schema

namespace Converter

/-! ## As one object -/

theorem resolveWithin_eq_of_form_eq {node other : Json} (h : Schema.form node = Schema.form other)
    (converter : Converter) (levels : Nat) (context : Context) (position : Nat) :
    converter.resolveWithin (levels + 1) node context position =
      converter.resolveWithin (levels + 1) other context position := by
  rw [resolveWithin, resolveWithin, h]

/-- **An `allOf` within the limit resolves as one object.** If its branches declare a property, it
gives the same shape, the same draws and the same events as the object of the combined properties;
otherwise it is a list or an object without a draw or an event. Nothing else in the node counts. -/
theorem resolve_composition (converter : Converter) {schema : Fields}
    (h : Schema.IsComposition schema) (levels : Nat) (context : Context) (position : Nat) :
    let branches := Schema.branches schema
    (Schema.combined branches ≠ [] →
      converter.resolveWithin (levels + 1) (.obj schema) context position =
        converter.resolveWithin (levels + 1) (Schema.combinedObject branches) context position) ∧
    (Schema.combined branches = [] →
      converter.resolveWithin (levels + 1) (.obj schema) context position =
        ⟨Schema.propertyless branches, 0, []⟩) ∧
    ∀ other : Fields, Schema.IsComposition other →
      Schema.combined (Schema.branches other) = Schema.combined branches →
      Schema.mergedRequired (Schema.branches other) = Schema.mergedRequired branches →
      Schema.lastType? (Schema.branches other) = Schema.lastType? branches →
      converter.resolveWithin (levels + 1) (.obj other) context position =
        converter.resolveWithin (levels + 1) (.obj schema) context position := by
  intro branches
  have hform := h.form_eq.trans (Schema.mergedForm_eq schema)
  refine ⟨fun hne => ?_, fun hnil => ?_, fun other hother hcombined hrequired htype => ?_⟩
  · refine resolveWithin_eq_of_form_eq ?_ converter levels context position
    rw [hform, Schema.form_combinedObject hne, Schema.recordOr, if_neg (by simpa using hne)]
  · refine resolveWithin_leaf ?_ converter levels context position
    rw [hform, Schema.recordOr, if_pos (List.isEmpty_iff.mpr hnil)]
  · refine resolveWithin_eq_of_form_eq ?_ converter levels context position
    rw [hform, hother.form_eq, Schema.mergedForm_eq, Schema.propertyless, hcombined, hrequired,
      htype, ← Schema.propertyless]

/-- Variants come first here, and a later branch overrides one of the names that they share. -/
theorem resolve_composition_of_variants_first :
    let typed (name : String) : Json := .obj [("type", .str name)]
    let variant (properties : Fields) : Json := .obj [("properties", .obj properties)]
    let schema : Fields := [("allOf", .arr [
      .obj [("required", .arr [.str "kind", .null]), ("oneOf", .arr [
        variant [("kind", typed "integer"), ("radius", typed "number")],
        variant [("radius", typed "string"), ("side", typed "number")]])],
      .bool true,
      .obj [("properties", .obj [("label", typed "string"), ("kind", typed "string")]),
        ("required", .arr [.str "label"])]])]
    let merged : Json := .obj [("type", .str "object"),
      ("properties", .obj [("kind", typed "string"), ("radius", typed "number"),
        ("side", typed "number"), ("label", typed "string")]),
      ("required", .arr [.str "kind", .str "label"])]
    let converter : Converter := ⟨.counting 0, 64⟩
    Schema.IsComposition schema ∧ Schema.combined (Schema.branches schema) ≠ [] ∧
      converter.resolve (.obj schema) ⟨"Figure"⟩ 0 = converter.resolve merged ⟨"Figure"⟩ 0 := by
  intro typed variant schema merged converter
  have hcomposition : Schema.IsComposition schema := ⟨rfl, rfl, rfl⟩
  have hmerged : Schema.combinedObject (Schema.branches schema) = merged := by rfl
  have hne : Schema.combined (Schema.branches schema) ≠ [] := List.cons_ne_nil _ _
  refine ⟨hcomposition, hne, ?_⟩
  rw [← hmerged]
  exact (resolve_composition converter hcomposition 63 ⟨"Figure"⟩ 0).1 hne

/-! ## Which fields are required -/

/-- The record of an `allOf` has the combined properties for its fields. -/
theorem fields_of_composition (converter : Converter) {schema : Fields}
    (h : Schema.IsComposition schema) {levels : Nat} {context : Context} {position : Nat}
    {record : RecordShape}
    (hrecord : (converter.resolveWithin levels (.obj schema) context position).value =
      .record record) :
    ∃ resolution, record.fields =
      (resolveFields resolution (Schema.mergedRequired (Schema.branches schema))
        (Schema.combined (Schema.branches schema)) position).value := by
  have hform := h.form_eq.trans (Schema.mergedForm_eq schema)
  cases levels with
  | zero =>
    rw [resolveWithin_zero] at hrecord
    cases hrecord
  | succ levels =>
    unfold Schema.recordOr at hform
    split at hform
    · -- Without properties there is no record.
      rw [resolveWithin_leaf hform, Schema.propertyless] at hrecord
      split at hrecord <;> cases hrecord
    · rw [resolveWithin_record hform] at hrecord
      cases hrecord
      exact ⟨converter.resolveWithin levels, fields_resolveRecord _ _ _ _ _ _⟩

/-- **Which fields of an `allOf` are required.** Its record has a field for each name that a branch
or a variant declares, in the order of first sight. A field is required exactly when some branch
lists its name, and otherwise it accepts `null` besides and stands for `null` when it is left out.
So what only variants declare stays optional exactly as long as no branch lists it. -/
theorem required_of_composition (converter : Converter) {schema : Fields}
    (h : Schema.IsComposition schema) {levels : Nat} {context : Context} {position : Nat}
    {record : RecordShape}
    (hrecord : (converter.resolveWithin levels (.obj schema) context position).value =
      .record record) :
    let branches := Schema.branches schema
    record.fieldNames = (Schema.sightings branches).eraseDups ∧
    (∀ f ∈ record.fields,
      (f.required = true ↔ ∃ branch ∈ branches, Schema.Requires branch f.name) ∧
      (f.required = false → (∃ shape : Shape, f.shape = shape.nullable) ∧
        f.default? = some .null)) ∧
    (Schema.VariantsStayOptional branches record.fields ↔
      ∀ name,
        (∃ branch ∈ branches, ∃ variant ∈ Schema.variants branch, Schema.Declares variant name) →
        (∃ branch ∈ branches, Schema.Requires branch name) →
        ∃ branch ∈ branches, Schema.Declares branch name) := by
  intro branches
  obtain ⟨resolution, hfields⟩ := fields_of_composition converter h hrecord
  have hnames : record.fieldNames = (Schema.sightings branches).eraseDups := by
    rw [RecordShape.fieldNames, hfields, names_resolveFields, Schema.keys_combined]
  have hmem : ∀ name, (∃ f ∈ record.fields, f.name = name) ↔ name ∈ Schema.sightings branches := by
    intro name
    rw [← List.mem_eraseDups, ← hnames, RecordShape.fieldNames, List.mem_map]
  have hrequired : ∀ f ∈ record.fields,
      (f.required = true ↔ ∃ branch ∈ branches, Schema.Requires branch f.name) ∧
      (f.required = false → (∃ shape : Shape, f.shape = shape.nullable) ∧
        f.default? = some .null) := by
    intro f hf
    rw [hfields] at hf
    obtain ⟨hlisted, hnullable⟩ := forall_mem_resolveFields_required _ _ _ _ f hf
    refine ⟨hlisted.trans Schema.mem_mergedRequired_iff, fun hopt => ⟨hnullable hopt, ?_⟩⟩
    rw [FieldShape.default?, hopt]
    rfl
  refine ⟨hnames, hrequired, fun hoptional name hvariant hlisted => ?_, fun hdeclared f hf => ?_⟩
  · obtain ⟨f, hf, rfl⟩ := (hmem name).mpr (Schema.mem_sightings_iff.mpr (Or.inr hvariant))
    exact ((hoptional f hf).mp ((hrequired f hf).1.mpr hlisted)).1
  · rw [(hrequired f hf).1]
    refine ⟨fun hlisted => ⟨?_, hlisted⟩, fun both => both.2⟩
    rcases Schema.mem_sightings_iff.mp ((hmem f.name).mp ⟨f, hf, rfl⟩) with hown | hvariant
    · exact hown
    · exact hdeclared f.name hvariant hlisted

/-- Of what the variant declares here nothing is listed that the branch does not declare as well. -/
theorem required_of_composition_for_listed_id :
    let typed (name : String) : Json := .obj [("type", .str name)]
    let variant : Json :=
      .obj [("properties", .obj [("id", typed "string"), ("mode", typed "string")])]
    let schema : Fields := [("allOf", .arr [.obj [("properties", .obj [("id", typed "integer")]),
      ("required", .arr [.str "id", .str "ghost"]), ("anyOf", .arr [variant])]])]
    let record : RecordShape := ⟨"Generated_Call_00000000",
      [⟨"id", .scalar .integer, true, ""⟩, ⟨"mode", Shape.string.nullable, false, ""⟩]⟩
    let branches := Schema.branches schema
    let converter : Converter := ⟨.counting 0, 64⟩
    Schema.IsComposition schema ∧
      (converter.resolveWithin 64 (.obj schema) ⟨"Call"⟩ 0).value = .record record ∧
      record.fieldNames = (Schema.sightings branches).eraseDups ∧
      ∀ name,
        (∃ branch ∈ branches, ∃ variant ∈ Schema.variants branch, Schema.Declares variant name) →
        (∃ branch ∈ branches, Schema.Requires branch name) →
        ∃ branch ∈ branches, Schema.Declares branch name := by
  intro typed variant schema record branches converter
  have hcomposition : Schema.IsComposition schema := ⟨rfl, rfl, rfl⟩
  have hform : Schema.form (.obj schema) =
      .record [("id", typed "integer"), ("mode", typed "string")] ["id", "ghost"] := rfl
  have hinteger : Schema.form (typed "integer") = .leaf (.scalar .integer) := rfl
  have hstring : Schema.form (typed "string") = .leaf .string := rfl
  have hfields : resolveFields (converter.resolveWithin 63) ["id", "ghost"]
      [("id", typed "integer"), ("mode", typed "string")] 0 = ⟨record.fields, 0, []⟩ := by
    simp only [resolveFields_cons, resolveWithin_leaf hinteger, resolveWithin_leaf hstring]
    rfl
  have hrecord : (converter.resolveWithin 64 (.obj schema) ⟨"Call"⟩ 0).value = .record record := by
    have hname : Name.generated ⟨"Call"⟩ (converter.source 0) = record.name := rfl
    rw [resolveWithin_record hform, resolveRecord_apply, hfields]
    exact congrArg (fun name => Shape.record ⟨name, record.fields⟩) hname
  have hoptional : Schema.VariantsStayOptional branches record.fields := by decide +kernel
  obtain ⟨hnames, _, hiff⟩ := required_of_composition converter hcomposition hrecord
  exact ⟨hcomposition, hrecord, hnames, hiff.mp hoptional⟩

/-- **A field that only a variant declares can be required**: it is as soon as the branch around the
variant lists its name. -/
theorem listed_variant_field_is_required :
    let string : Json := .obj [("type", .str "string")]
    let variant : Json := .obj [("properties", .obj [("x", string)])]
    let schema : Fields :=
      [("allOf", .arr [.obj [("anyOf", .arr [variant]), ("required", .arr [.str "x"])]])]
    let branches := Schema.branches schema
    let record : RecordShape := ⟨"Generated_Merged_00000000", [⟨"x", .string, true, ""⟩]⟩
    let converter : Converter := ⟨.counting 0, 64⟩
    Schema.IsComposition schema ∧
      (converter.resolve (.obj schema) ⟨"Merged"⟩ 0).value = .record record ∧
      (¬ ∃ branch ∈ branches, Schema.Declares branch "x") ∧
      ¬ Schema.VariantsStayOptional branches record.fields := by
  intro string variant schema branches record converter
  have hform : Schema.form (.obj schema) = .record [("x", string)] ["x"] := rfl
  have hstring : Schema.form string = .leaf .string := rfl
  have hfields : resolveFields (converter.resolveWithin 63) ["x"] [("x", string)] 0 =
      ⟨record.fields, 0, []⟩ := by
    rw [resolveFields_cons, resolveWithin_leaf hstring]
    rfl
  have hrecord : (converter.resolve (.obj schema) ⟨"Merged"⟩ 0).value = .record record := by
    have hname : Name.generated ⟨"Merged"⟩ (converter.source 0) = record.name := rfl
    rw [resolve, resolveWithin_record hform, resolveRecord_apply, hfields]
    exact congrArg (fun name => Shape.record ⟨name, record.fields⟩) hname
  exact ⟨⟨rfl, rfl, rfl⟩, hrecord, by decide +kernel, by decide +kernel⟩

end Converter

end ToolShape
