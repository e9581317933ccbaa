import ToolShape.Proofs.Schema.Properties
import ToolShape.Schema.Form

/-!
# An `allOf` as one object

The branches of an `allOf` are gathered step by step: a branch overrides, its variants add. This
file says what comes out without the steps.

> **`mergedProperties branches = combined branches`**

`Schema.combined` takes each name where it is first sighted and gives it the schema that counts: of
the branches that declare the name for themselves the last one, and otherwise of the variants the
first. Those are two different rules, for places and for schemas, and neither knows when a variant
was read in between.

So a node that its `allOf` decides has the form of the object `Schema.combinedObject`, which
declares the combined properties and requires what any branch requires.
-/

set_option autoImplicit false

namespace ToolShape

open Json (Fields)

namespace Json.Fields

/-- Fields of different names are settled by the names in order and by what stands under each. -/
theorem filterMap_get?_keys {fields : Fields} (h : fields.keys.Nodup) :
    fields.keys.filterMap (fun name => (fields.get? name).map (name, ·)) = fields := by
  induction fields with
  | nil => rfl
  | cons p rest ih =>
    obtain ⟨k, v⟩ := p
    obtain ⟨hnew, hrest⟩ := List.nodup_cons.mp h
    have htail : (keys rest).filterMap (fun name => (get? ((k, v) :: rest) name).map (name, ·)) =
        rest := by
      refine (List.filterMap_congr fun name hname => ?_).trans (ih hrest)
      have hne : k ≠ name := fun e => hnew (e ▸ hname)
      rw [get?, if_neg hne]
    have hhead : get? ((k, v) :: rest) k = some v := if_pos rfl
    rw [keys, List.map_cons, List.filterMap_cons, hhead, ← keys, htail]
    rfl

/-- Of joined fields the first list with a name counts. -/
theorem get?_flatMap (nodes : List Json) (fields : Json → Fields) (name : String) :
    get? (nodes.flatMap fields) name =
      (nodes.filterMap fun node => (fields node).get? name).head? := by
  induction nodes with
  | nil => rfl
  | cons node rest ih =>
    rw [List.flatMap_cons, get?_append, ih, List.filterMap_cons]
    cases (fields node).get? name <;> rfl

/-- Read from the end, the last list with a name counts. -/
theorem get?_reverse_flatMap (nodes : List Json) (fields : Json → Fields) (name : String) :
    get? (nodes.flatMap fields).reverse name =
      (nodes.filterMap fun node => get? (fields node).reverse name).getLast? := by
  rw [List.reverse_flatMap, get?_flatMap, List.filterMap_reverse, List.head?_reverse]
  rfl

end Json.Fields

namespace Schema

/-! ## The combined properties -/

/-- What the branches themselves declare a name to be, from the first branch to the last. In an
object that repeats a name its last entry counts. -/
def ownSchemas (branches : List Json) (name : String) : List Json :=
  branches.filterMap fun branch => Fields.get? (properties branch).reverse name

/-- What the variants of the branches declare a name to be, from the first variant to the last. -/
def variantSchemas (branches : List Json) (name : String) : List Json :=
  (branches.flatMap variants).filterMap fun variant => (properties variant).get? name

/-- The schema of a name: what the last branch to declare it for itself says, and otherwise what the
first variant to declare it says. -/
def schemaOf? (branches : List Json) (name : String) : Option Json :=
  (ownSchemas branches name).getLast?.or (variantSchemas branches name).head?

/-- The properties that branches declare together, each where its name is first sighted. -/
def combined (branches : List Json) : Fields :=
  (sightings branches).eraseDups.filterMap fun name => (schemaOf? branches name).map (name, ·)

theorem get?_declarations (branches : List Json) (name : String) :
    (declarations branches).get? name = schemaOf? branches name := by
  rw [declarations, Fields.get?_append, Fields.get?_reverse_flatMap, ← List.flatMap_assoc,
    Fields.get?_flatMap]
  rfl

/-- **The merge is the combination.** -/
theorem mergedProperties_eq_combined (branches : List Json) :
    mergedProperties branches = combined branches := by
  rw [← Fields.filterMap_get?_keys (nodup_keys_mergedProperties branches), keys_mergedProperties,
    combined]
  refine List.filterMap_congr fun name _ => ?_
  rw [get?_mergedProperties, get?_declarations]

/-- Every name that is sighted has a schema, so the combination leaves none out. -/
theorem keys_combined (branches : List Json) :
    (combined branches).keys = (sightings branches).eraseDups := by
  rw [← mergedProperties_eq_combined, keys_mergedProperties]

/-! ## The object of the combined properties -/

/-- A node that its `allOf` decides: no keyword that goes before it is there. -/
structure IsComposition (schema : Fields) : Prop where
  has_allOf : schema.has "allOf" = true
  not_reference : schema.has "$ref" = false
  not_enum : schema.has "enum" = false

/-- The object that declares what branches declare together, and requires what any of them does. -/
def combinedObject (branches : List Json) : Json :=
  .obj [("type", .str "object"), ("properties", .obj (combined branches)),
    ("required", .arr ((mergedRequired branches).map .str))]

/-- What an `allOf` without properties comes to: a list when the last `type` given says so, and
otherwise an object of any fields. -/
def propertyless (branches : List Json) : Shape :=
  if (lastType? branches).bind Json.asString? = some "array" then .untypedSequence else .mapping

theorem IsComposition.form_eq {schema : Fields} (h : IsComposition schema) :
    form (.obj schema) = mergedForm schema := by
  have hne : schema.isEmpty = false := Fields.isEmpty_eq_false_of_has h.has_allOf
  simp [form, hne, h.has_allOf, h.not_reference, h.not_enum]

theorem mergedForm_eq (schema : Fields) :
    mergedForm schema =
      recordOr (combined (branches schema)) (mergedRequired (branches schema))
        (propertyless (branches schema)) := by
  rw [mergedForm, mergedProperties_eq_combined, propertyless]
  congr 1
  cases (lastType? (branches schema)).bind Json.asString? <;> simp

/-- Properties of different names are set as they are. -/
theorem override_eq_append {kept new : Fields} (h : (kept.keys ++ new.keys).Nodup) :
    override kept new = kept ++ new := by
  induction new generalizing kept with
  | nil => simp [override]
  | cons p rest ih =>
    obtain ⟨name, schema⟩ := p
    obtain ⟨_, _, hdisjoint⟩ := List.nodup_append.mp h
    have hnew : name ∉ kept.keys := fun hmem => hdisjoint name hmem name List.mem_cons_self rfl
    have hrest : (Fields.keys (kept ++ [(name, schema)]) ++ Fields.keys rest).Nodup := by
      simpa [Fields.keys] using h
    rw [override, Fields.put_of_not_mem hnew, ih hrest, List.append_assoc, List.singleton_append]

theorem override_nil_eq_self {fields : Fields} (h : fields.keys.Nodup) :
    override [] fields = fields :=
  @override_eq_append [] fields h

theorem requiredNames_map_str (names : List String) :
    requiredNames (some (.arr (names.map .str))) = names := by
  show (names.map Json.str).filterMap Json.asString? = names
  rw [List.filterMap_map]
  exact List.filterMap_some

theorem nodup_keys_combined (branches : List Json) : (combined branches).keys.Nodup := by
  rw [keys_combined]
  exact nodup_eraseDups _

theorem form_combinedObject {branches : List Json} (hne : combined branches ≠ []) :
    form (combinedObject branches) = .record (combined branches) (mergedRequired branches) := by
  have hproperties : override [] (properties (combinedObject branches)) = combined branches :=
    override_nil_eq_self (nodup_keys_combined branches)
  have hform : form (combinedObject branches) =
      recordOr (override [] (properties (combinedObject branches)))
        (requiredNames (some (.arr ((mergedRequired branches).map .str)))) .mapping := rfl
  rw [hform, hproperties, requiredNames_map_str, recordOr,
    if_neg (by simpa using hne)]

end Schema

end ToolShape
