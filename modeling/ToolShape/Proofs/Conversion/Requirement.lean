import ToolShape.Proofs.Conversion.WellFormed
import ToolShape.Proofs.Shape.Null

/-!
# Required or optional

Whether a property's name is required has no part in how anything is resolved. It decides one thing,
at the end: a field that is not required gets a nullable shape and may be left out.

> **Two conversions that differ in whether one property is required differ in that field alone, and
> their checks in what they say when it is absent or `null`** (`Converter.sameButFor_buildRecord`).

That a value other than `null` has its issues at the same places rests on what conversions give:
shapes in normal form (`Shape.places_nullable`). A union of a single member would be reported through
that member, and for itself as soon as `null` joins it.
-/

set_option autoImplicit false

namespace ToolShape

open Json (Fields)
open Name (Context)

/-- Whether an issue is at the field of a name, or inside of it. -/
def Issue.concerns (name : String) (issue : Issue) : Bool :=
  issue.place.head? == some (.field name)

/-- Two records are the same but for one field, which the first requires and the second does not; and
so are their issues. -/
structure RecordShape.SameButFor (name : String) (mandatory optional : RecordShape) : Prop where
  name_eq : mandatory.name = optional.name
  fields_eq : ∃ before shape description after,
    mandatory.fields = before ++ .mandatory name shape description :: after ∧
    optional.fields = before ++ .optional name shape description :: after ∧
    ∀ f ∈ before ++ after, f.name ≠ name
  /-- A value other than `null` has its issues at the same paths. -/
  present : ∀ (object : Fields) v, object.get? name = some v → v ≠ .null →
    (mandatory.issues (.obj object)).map Issue.path = (optional.issues (.obj object)).map Issue.path
  /-- Where there is no value, the first has one issue more. -/
  absent : ∀ object : Fields, object.get? name = none → ∃ before issue after,
    issue.path = "/" ++ name ∧ issue.message = "missing required field" ∧
    mandatory.issues (.obj object) = before ++ issue :: after ∧
    optional.issues (.obj object) = before ++ after
  /-- Of `null` the second has no issue, and of other fields both have the same. -/
  null : ∀ object : Fields, object.get? name = some .null →
    (optional.issues (.obj object)).filter (Issue.concerns name) = [] ∧
    (mandatory.issues (.obj object)).filter (!Issue.concerns name ·) =
      (optional.issues (.obj object)).filter (!Issue.concerns name ·)

/-! ## Issues of one field -/

namespace FieldShape

variable {name description : String} {shape : Shape} {object : Fields}

theorem concerns_of_mem_issuesIn {f : FieldShape} {issue : Issue} (h : issue ∈ f.issuesIn object)
    (name : String) : issue.concerns name = true ↔ f.name = name := by
  obtain ⟨rest, hplace⟩ := exists_place_of_mem_issuesIn h
  simp [Issue.concerns, hplace]

theorem issuesIn_mandatory_of_none (h : object.get? name = none) :
    (mandatory name shape description).issuesIn object = [⟨[.field name], .missing⟩] :=
  issuesIn_of_none h

theorem issuesIn_optional_of_none (h : object.get? name = none) :
    (optional name shape description).issuesIn object = [] :=
  issuesIn_of_none h

theorem issuesIn_optional_of_null (h : object.get? name = some .null) :
    (optional name shape description).issuesIn object = [] :=
  issuesIn_of_some (f := optional name shape description) h

theorem map_path_issuesIn (f : FieldShape) (object : Fields) :
    (f.issuesIn object).map Issue.path = (f.placesIn object).map Place.path := by
  rw [placesIn, List.map_map]
  rfl

/-- Of a value other than `null`, a field finds issues at the same places, required or not. -/
theorem placesIn_mandatory_eq (hshape : shape.Normal) {v : Json} (h : object.get? name = some v)
    (hv : v ≠ .null) :
    (mandatory name shape description).placesIn object =
      (optional name shape description).placesIn object := by
  have hmandatory := placesIn_of_some (f := mandatory name shape description) h
  have hoptional := placesIn_of_some (f := optional name shape description) h
  have hnull : v.isNull = false := by
    cases v with
    | null => exact absurd rfl hv
    | _ => rfl
  rw [hmandatory, hoptional, hnull]
  exact congrArg (List.map (Step.field name :: ·)) (Shape.places_nullable hshape hv).symm

end FieldShape

/-! ## Issues of the records -/

namespace RecordShape

variable {name description : String} {shape : Shape} {before after : List FieldShape}

theorem issues_obj (r : RecordShape) (object : Fields) :
    r.issues (.obj object) = r.fields.flatMap (·.issuesIn object) := by
  obtain ⟨name, fields⟩ := r
  rw [issues_eq, Shape.issues_record_obj]

theorem issues_obj_of_fields_eq {r : RecordShape} {f : FieldShape}
    (h : r.fields = before ++ f :: after) (object : Fields) :
    r.issues (.obj object) = before.flatMap (·.issuesIn object) ++
      (f.issuesIn object ++ after.flatMap (·.issuesIn object)) := by
  rw [issues_obj, h, List.flatMap_append, List.flatMap_cons]

/-- Fields of other names have no issues at the field of a name. -/
theorem filter_concerns_of_ne {fields : List FieldShape} (h : ∀ f ∈ fields, f.name ≠ name)
    (object : Fields) :
    (fields.flatMap (·.issuesIn object)).filter (Issue.concerns name) = [] := by
  rw [List.filter_eq_nil_iff]
  intro issue hissue
  obtain ⟨f, hf, hmem⟩ := List.mem_flatMap.mp hissue
  rw [FieldShape.concerns_of_mem_issuesIn hmem]
  exact h f hf

/-- All issues of a field are at its name. -/
theorem filter_not_concerns_issuesIn (f : FieldShape) (object : Fields) :
    (f.issuesIn object).filter (!Issue.concerns f.name ·) = [] := by
  rw [List.filter_eq_nil_iff]
  intro issue hissue
  simp [(FieldShape.concerns_of_mem_issuesIn hissue f.name).mpr rfl]

/-- **Records with the same fields but one, required or not, are the same but for it.** -/
theorem sameButFor_of_fields_eq {mandatory optional : RecordShape}
    (hname : mandatory.name = optional.name) (hshape : shape.Normal)
    (hmandatory : mandatory.fields = before ++ .mandatory name shape description :: after)
    (hoptional : optional.fields = before ++ .optional name shape description :: after)
    (hothers : ∀ f ∈ before ++ after, f.name ≠ name) : mandatory.SameButFor name optional where
  name_eq := hname
  fields_eq := ⟨before, shape, description, after, hmandatory, hoptional, hothers⟩
  present object v hobject hv := by
    have hplaces : (FieldShape.mandatory name shape description).placesIn object =
        (FieldShape.optional name shape description).placesIn object :=
      FieldShape.placesIn_mandatory_eq hshape hobject hv
    rw [issues_obj_of_fields_eq hmandatory, issues_obj_of_fields_eq hoptional]
    simp only [List.map_append, FieldShape.map_path_issuesIn, hplaces]
  absent object hobject := by
    refine ⟨before.flatMap (·.issuesIn object), ⟨[.field name], .missing⟩,
      after.flatMap (·.issuesIn object), ?_, rfl, ?_, ?_⟩
    · simp [Issue.path, Place.path, Place.stepText]
    · rw [issues_obj_of_fields_eq hmandatory, FieldShape.issuesIn_mandatory_of_none hobject]
      rfl
    · rw [issues_obj_of_fields_eq hoptional, FieldShape.issuesIn_optional_of_none hobject]
      rfl
  null object hobject := by
    obtain ⟨hbefore, hafter⟩ := List.forall_mem_append.mp hothers
    rw [issues_obj_of_fields_eq hmandatory, issues_obj_of_fields_eq hoptional,
      FieldShape.issuesIn_optional_of_null hobject, List.nil_append]
    constructor
    · rw [List.filter_append, filter_concerns_of_ne hbefore, filter_concerns_of_ne hafter]
      rfl
    · have hmiddle : ((FieldShape.mandatory name shape description).issuesIn object).filter
          (!Issue.concerns name ·) = [] :=
        filter_not_concerns_issuesIn (.mandatory name shape description) object
      rw [List.filter_append, List.filter_append, List.filter_append, hmiddle, List.nil_append]

end RecordShape

/-! ## Both conversions -/

namespace Converter

variable {name : String} {required added removed : List String} {properties : Fields}

/-- **One required name more changes one field**, for any way to resolve nodes that gives normal
forms. -/
theorem sameButFor_resolveRecord (converter : Converter) {resolution : Resolution}
    (hnormal : ∀ node context position, (resolution node context position).value.Normal)
    (hname : name ∈ properties.keys) (hnodup : properties.keys.Nodup)
    (hadded : ∀ n, n ∈ added ↔ n = name ∨ n ∈ required)
    (hremoved : ∀ n, n ∈ removed ↔ n ∈ required ∧ n ≠ name) (context : Context) (position : Nat) :
    let mandatory := converter.resolveRecord resolution context properties added position
    let optional := converter.resolveRecord resolution context properties removed position
    mandatory.drawn = optional.drawn ∧ mandatory.value.SameButFor name optional.value := by
  obtain ⟨before, schema, after, rfl, hbefore, hafter⟩ :=
    Fields.exists_split_of_mem_keys hname hnodup
  -- Before the property and behind it both conversions do the same.
  have hagree : ∀ fields : Fields, name ∉ fields.keys → ∀ n ∈ fields.keys, n ∈ added ↔ n ∈ removed := by
    intro fields hfields n hn
    have hne : n ≠ name := fun h => hfields (h ▸ hn)
    rw [hadded, hremoved, or_iff_right hne, and_iff_left hne]
  have hfront := resolveFields_congr resolution (hagree before hbefore) position
  have hback := resolveFields_congr resolution (hagree after hafter)
  have hothers : ∀ {fields : Fields}, name ∉ fields.keys → ∀ position,
      ∀ f ∈ (resolveFields resolution removed fields position).value, f.name ≠ name := by
    intro fields hfields position f hf heq
    rw [← names_resolveFields resolution removed fields position] at hfields
    exact hfields (List.mem_map.mpr ⟨f, hf, heq⟩)
  intro mandatory optional
  simp only [mandatory, optional, resolveRecord_apply, resolveFields_append, resolveFields_cons,
    hfront, hback, field_of_mem ((hadded name).mpr (Or.inl rfl)),
    field_of_not_mem fun h => ((hremoved name).mp h).2 rfl]
  refine ⟨trivial, RecordShape.sameButFor_of_fields_eq rfl (hnormal _ _ _) rfl rfl ?_⟩
  exact List.forall_mem_append.mpr ⟨hothers hbefore _, hothers hafter _⟩

/-- **Whether a property is required counts only where it is absent or `null`.** Let a name of a
property be added to the required names, or be removed from them, and build the record both ways from
one position and with one limit. As many suffixes are drawn, and the records are the same but for
that field. The same holds of a tool's record. -/
theorem sameButFor_buildRecord (converter : Converter) (hname : name ∈ properties.keys)
    (hadded : ∀ n, n ∈ added ↔ n = name ∨ n ∈ required)
    (hremoved : ∀ n, n ∈ removed ↔ n ∈ required ∧ n ≠ name) (position : Nat) :
    (∀ context,
      let mandatory := converter.buildRecord context properties added position
      let optional := converter.buildRecord context properties removed position
      mandatory.drawn = optional.drawn ∧ mandatory.value.SameButFor name optional.value) ∧
    ∀ toolName schema other,
      Schema.properties schema = properties → Schema.properties other = properties →
      Schema.requiredNames (schema.get? "required") = added →
      Schema.requiredNames (other.get? "required") = removed →
      let mandatory := converter.convert toolName schema position
      let optional := converter.convert toolName other position
      mandatory.drawn = optional.drawn ∧ mandatory.value.SameButFor name optional.value := by
  have hnormal : ∀ node context position,
      (converter.resolveWithin converter.maxDepth node context position).value.Normal :=
    fun node context position => (formedWithin_resolveWithin converter _ node context position).1.normal
  have hmem : name ∈ (Schema.override [] properties).keys := by
    rw [@Schema.keys_override [] [] rfl, List.nil_append, List.mem_eraseDups]
    exact hname
  have hbuild : ∀ context,
      let mandatory := converter.buildRecord context properties added position
      let optional := converter.buildRecord context properties removed position
      mandatory.drawn = optional.drawn ∧ mandatory.value.SameButFor name optional.value :=
    fun context => sameButFor_resolveRecord converter hnormal hmem
      (Schema.nodup_keys_override_nil properties) hadded hremoved context position
  refine ⟨hbuild, fun toolName schema other hschema hother hrequired hrequired' => ?_⟩
  intro mandatory optional
  simp only [mandatory, optional, convert_apply, hschema, hother, hrequired, hrequired']
  exact hbuild (Context.ofTool toolName)

/-- A tag that is a text or an object, so that `null` is the third member where it is optional. -/
theorem sameButFor_buildRecord_for_tag :
    let typed (name : String) : Json := .obj [("type", .str name)]
    let pair : Json := .obj [("type", .str "object"), ("properties", .obj [("key", typed "string")])]
    let properties : Fields :=
      [("id", typed "integer"), ("tag", .obj [("anyOf", .arr [typed "string", pair])])]
    let schema (required : List Json) : Json :=
      .obj [("properties", .obj properties), ("required", .arr required)]
    let converter : Converter := ⟨.counting 0, 4⟩
    let mandatory := converter.convert "label" (schema [.str "id", .str "tag"]) 7
    let optional := converter.convert "label" (schema [.str "id"]) 7
    let object : Fields := [("id", .num (.int 1)), ("tag", .num (.int 2))]
    "tag" ∈ properties.keys ∧
      (∀ n, n ∈ ["id", "tag"] ↔ n = "tag" ∨ n ∈ ["id"]) ∧
      (∀ n, n ∈ ["id"] ↔ n ∈ ["id"] ∧ n ≠ "tag") ∧
      mandatory.drawn = 2 ∧ optional.drawn = 2 ∧
      mandatory.value.SameButFor "tag" optional.value ∧
      (mandatory.value.issues (.obj object)).map Issue.path = ["/tag"] ∧
      (optional.value.issues (.obj object)).map Issue.path = ["/tag"] := by
  intro typed pair properties schema converter mandatory optional object
  have hname : "tag" ∈ properties.keys := by decide
  have hadded : ∀ n, n ∈ ["id", "tag"] ↔ n = "tag" ∨ n ∈ ["id"] := by
    simp [or_comm]
  have hremoved : ∀ n, n ∈ ["id"] ↔ n ∈ ["id"] ∧ n ≠ "tag" := by
    intro n
    simp only [List.mem_singleton, iff_self_and]
    rintro rfl
    decide
  have htwo : optional.drawn = 2 := by decide +kernel
  have hpath : (optional.value.issues (.obj object)).map Issue.path = ["/tag"] := by decide +kernel
  obtain ⟨_, hconvert⟩ := sameButFor_buildRecord converter hname hadded hremoved 7
  obtain ⟨hdrawn, hsame⟩ := hconvert "label" (schema [.str "id", .str "tag"]) (schema [.str "id"])
    rfl rfl rfl rfl
  have hpaths := hsame.present object (.num (.int 2)) rfl (by simp)
  exact ⟨hname, hadded, hremoved, hdrawn.trans htwo, htwo, hsame, hpaths.trans hpath, hpath⟩

end Converter

end ToolShape
