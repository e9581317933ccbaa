import ToolShape.Schema.Form
import Mathlib.Data.List.Nodup

/-!
# How many values a schema holds

The size of a value counts the value itself and all that stand in it. A form is made of parts of its
node, and they are different parts:

> **What a form is made of holds together at most as many values as its node**
> (`Schema.size_form_le`).

Each keyword leads to a part of its own (`Json.sizeOfItems_valuesAt_lt`). That settles every form but one: an
`allOf` gathers properties from under three keywords of every branch. There a property is set that
may have been set before, and then the schema that stood there makes room for the new one, so that
gathering never makes more of what it gathers (`Json.sizeOfFields_put_le`).
-/

set_option autoImplicit false

namespace ToolShape

open Json (Fields)

namespace Json

mutual

/-- The number of values in a value: itself, and all that stand in it. Keys are no values. -/
def size : Json → Nat
  | .arr items => sizeOfItems items + 1
  | .obj fields => sizeOfFields fields + 1
  | _ => 1

def sizeOfItems : List Json → Nat
  | [] => 0
  | v :: rest => v.size + sizeOfItems rest

def sizeOfFields : List (String × Json) → Nat
  | [] => 0
  | (_, v) :: rest => v.size + sizeOfFields rest

end

@[simp] theorem size_arr (items : List Json) : (arr items).size = sizeOfItems items + 1 := by
  rw [size]

@[simp] theorem size_obj (fields : Fields) : (obj fields).size = sizeOfFields fields + 1 := by
  rw [size]

theorem size_pos (v : Json) : 0 < v.size := by
  cases v <;> simp [size]

theorem sizeOfItems_append (front back : List Json) :
    sizeOfItems (front ++ back) = sizeOfItems front + sizeOfItems back := by
  induction front with
  | nil => simp [sizeOfItems]
  | cons v rest ih => rw [List.cons_append, sizeOfItems, sizeOfItems, ih, Nat.add_assoc]

theorem sizeOfItems_filter_le (items : List Json) (keep : Json → Bool) :
    sizeOfItems (items.filter keep) ≤ sizeOfItems items := by
  induction items with
  | nil => exact Nat.le_refl _
  | cons v rest ih =>
    rw [List.filter_cons, sizeOfItems]
    split
    · rw [sizeOfItems]
      exact Nat.add_le_add_left ih _
    · exact Nat.le_add_left_of_le ih

/-! ## Under keys -/

/-- The values under some keys. -/
def valuesAt (v : Json) (keys : List String) : List Json := keys.filterMap v.get?

/-- The number of values under a key. -/
def sizeAt (v : Json) (key : String) : Nat := ((v.get? key).map size).getD 0

theorem sizeOfItems_valuesAt_cons (v : Json) (key : String) (keys : List String) :
    sizeOfItems (v.valuesAt (key :: keys)) = v.sizeAt key + sizeOfItems (v.valuesAt keys) := by
  rw [valuesAt, List.filterMap_cons, sizeAt]
  cases v.get? key with
  | none => exact (Nat.zero_add _).symm
  | some w => rfl

theorem valuesAt_eq_nil {v : Json} (h : ∀ key, v.get? key = none) (keys : List String) :
    v.valuesAt keys = [] :=
  List.filterMap_eq_nil_iff.mpr fun key _ => h key

/-- A key that is not asked for plays no part. -/
theorem valuesAt_cons_of_not_mem {key : String} {keys : List String} (h : key ∉ keys) (v : Json)
    (rest : Fields) : (obj ((key, v) :: rest)).valuesAt keys = (obj rest).valuesAt keys := by
  refine List.filterMap_congr fun other hother => ?_
  have hne : key ≠ other := fun heq => h (heq ▸ hother)
  simp [get?, asObject?, Fields.get?, hne]

theorem sizeOfItems_valuesAt_obj_le {keys : List String} (h : keys.Nodup) (fields : Fields) :
    sizeOfItems ((obj fields).valuesAt keys) ≤ sizeOfFields fields := by
  induction fields generalizing keys with
  | nil =>
    rw [valuesAt_eq_nil fun _ => rfl]
    exact Nat.le_refl _
  | cons p rest ih =>
    obtain ⟨k, v⟩ := p
    rw [sizeOfFields]
    by_cases hk : k ∈ keys
    · obtain ⟨before, after, rfl⟩ := List.append_of_mem hk
      rw [List.nodup_middle, List.nodup_cons, List.mem_append, not_or] at h
      obtain ⟨⟨hbefore, hafter⟩, hothers⟩ := h
      have hself : (obj ((k, v) :: rest)).sizeAt k = v.size := by
        simp [sizeAt, get?, asObject?, Fields.get?]
      -- The other keys are looked up in the rest, on both sides of this one.
      have hrest := ih hothers
      rw [valuesAt, List.filterMap_append, sizeOfItems_append, ← valuesAt, ← valuesAt] at hrest ⊢
      rw [sizeOfItems_valuesAt_cons, hself, valuesAt_cons_of_not_mem hbefore,
        valuesAt_cons_of_not_mem hafter]
      omega
    · rw [valuesAt_cons_of_not_mem hk]
      exact Nat.le_add_left_of_le (ih h)

/-- **Different keys lead to different parts of a value.** -/
theorem sizeOfItems_valuesAt_lt {keys : List String} (h : keys.Nodup) (v : Json) :
    sizeOfItems (v.valuesAt keys) < v.size := by
  cases v with
  | obj fields =>
    rw [size_obj]
    exact Nat.lt_succ_of_le (sizeOfItems_valuesAt_obj_le h fields)
  | _ =>
    rw [valuesAt_eq_nil fun _ => rfl]
    exact size_pos _

theorem sizeAt_lt (v : Json) (key : String) : v.sizeAt key < v.size := by
  have hone := sizeOfItems_valuesAt_lt (List.nodup_singleton key) v
  rwa [sizeOfItems_valuesAt_cons] at hone

/-! ## Setting keys -/

/-- What is set under a key replaces what stood there, or is new. -/
theorem sizeOfFields_put_le (fields : Fields) (key : String) (value : Json) :
    sizeOfFields (fields.put key value) ≤ sizeOfFields fields + value.size := by
  induction fields with
  | nil => simp [Fields.put, sizeOfFields]
  | cons p rest ih =>
    obtain ⟨k, v⟩ := p
    rw [Fields.put]
    split
    · simp only [sizeOfFields]
      omega
    · simp only [sizeOfFields]
      omega

theorem sizeOfFields_putNew_le (fields : Fields) (key : String) (value : Json) :
    sizeOfFields (fields.putNew key value) ≤ sizeOfFields fields + value.size := by
  rw [Fields.putNew]
  split
  · exact Nat.le_add_right _ _
  · exact sizeOfFields_put_le fields key value

end Json

namespace Schema

open Json (size sizeOfItems sizeOfFields sizeAt)

/-! ## What stands under a keyword -/

theorem sizeOfFields_properties_le (node : Json) :
    sizeOfFields (properties node) ≤ node.sizeAt "properties" := by
  rw [properties, sizeAt]
  cases node.get? "properties" with
  | none => exact Nat.le_refl _
  | some v =>
    cases v with
    | obj fields => simp [Json.asObject?]
    | _ => exact Nat.zero_le _

theorem sizeOfFields_properties_lt (node : Json) : sizeOfFields (properties node) < node.size :=
  Nat.lt_of_le_of_lt (sizeOfFields_properties_le node) (node.sizeAt_lt "properties")

theorem sizeOfItems_under_le (node : Json) (key : String) :
    sizeOfItems (((node.get? key).bind Json.asArray?).getD []) ≤ node.sizeAt key := by
  rw [sizeAt]
  cases node.get? key with
  | none => exact Nat.le_refl _
  | some v =>
    cases v with
    | arr items => simp [Json.asArray?]
    | _ => exact Nat.zero_le _

/-- A node's own properties and its variants are different parts of it. -/
theorem sizeOfFields_properties_add_variants_le (node : Json) :
    sizeOfFields (properties node) + sizeOfItems (variants node) ≤ node.size := by
  have hkeywords : ["properties", "anyOf", "oneOf"].Nodup := by decide
  have hparts := Json.sizeOfItems_valuesAt_lt hkeywords node
  simp only [Json.sizeOfItems_valuesAt_cons] at hparts
  have hproperties := sizeOfFields_properties_le node
  have hany := sizeOfItems_under_le node "anyOf"
  have hone := sizeOfItems_under_le node "oneOf"
  rw [variants, Json.sizeOfItems_append]
  omega

/-! ## Gathered properties -/

theorem sizeOfFields_override_le (kept new : Fields) :
    sizeOfFields (override kept new) ≤ sizeOfFields kept + sizeOfFields new := by
  induction new generalizing kept with
  | nil => exact Nat.le_refl _
  | cons p rest ih =>
    obtain ⟨name, schema⟩ := p
    rw [override, sizeOfFields, ← Nat.add_assoc]
    exact Nat.le_trans (ih _) (Nat.add_le_add_right (Json.sizeOfFields_put_le kept name schema) _)

theorem sizeOfFields_override_nil_le (new : Fields) :
    sizeOfFields (override [] new) ≤ sizeOfFields new :=
  Nat.le_trans (sizeOfFields_override_le [] new) (Nat.le_of_eq (Nat.zero_add _))

theorem sizeOfFields_supplement_le (kept new : Fields) :
    sizeOfFields (supplement kept new) ≤ sizeOfFields kept + sizeOfFields new := by
  induction new generalizing kept with
  | nil => exact Nat.le_refl _
  | cons p rest ih =>
    obtain ⟨name, schema⟩ := p
    rw [supplement, sizeOfFields, ← Nat.add_assoc]
    exact Nat.le_trans (ih _)
      (Nat.add_le_add_right (Json.sizeOfFields_putNew_le kept name schema) _)

/-- Gathering from nodes that add at most their size each adds at most the size of all. -/
theorem sizeOfFields_foldl_le {add : Fields → Json → Fields}
    (h : ∀ kept node, sizeOfFields (add kept node) ≤ sizeOfFields kept + node.size) (kept : Fields)
    (nodes : List Json) :
    sizeOfFields (nodes.foldl add kept) ≤ sizeOfFields kept + sizeOfItems nodes := by
  induction nodes generalizing kept with
  | nil => exact Nat.le_refl _
  | cons node rest ih =>
    rw [List.foldl_cons, sizeOfItems, ← Nat.add_assoc]
    exact Nat.le_trans (ih _) (Nat.add_le_add_right (h kept node) _)

theorem sizeOfFields_foldl_supplement_le (kept : Fields) (nodes : List Json) :
    sizeOfFields (nodes.foldl (fun kept node => supplement kept (properties node)) kept) ≤
      sizeOfFields kept + sizeOfItems nodes :=
  sizeOfFields_foldl_le (fun kept node => Nat.le_trans (sizeOfFields_supplement_le kept _)
    (Nat.add_le_add_left (Nat.le_of_lt (sizeOfFields_properties_lt node)) _)) kept nodes

/-- A branch adds properties from different parts of it. -/
theorem sizeOfFields_addBranch_le (kept : Fields) (branch : Json) :
    sizeOfFields (addBranch kept branch) ≤ sizeOfFields kept + branch.size := by
  have hown := sizeOfFields_override_le kept (properties branch)
  have hparts := sizeOfFields_properties_add_variants_le branch
  refine Nat.le_trans (sizeOfFields_foldl_supplement_le _ _) ?_
  omega

/-- **An `allOf` gathers no more than stands under its keyword.** -/
theorem sizeOfFields_mergedProperties_le (schema : Fields) :
    sizeOfFields (mergedProperties (branches schema)) ≤ (Json.obj schema).sizeAt "allOf" :=
  calc sizeOfFields (mergedProperties (branches schema))
      ≤ sizeOfFields [] + sizeOfItems (branches schema) :=
        sizeOfFields_foldl_le sizeOfFields_addBranch_le [] _
    _ = sizeOfItems (branches schema) := Nat.zero_add _
    _ ≤ sizeOfItems (((schema.get? "allOf").bind Json.asArray?).getD []) :=
      Json.sizeOfItems_filter_le _ _
    _ ≤ (Json.obj schema).sizeAt "allOf" := sizeOfItems_under_le (.obj schema) "allOf"

/-! ## Forms -/

/-- The number of values in the nodes that a form is made of, and one more for a record. -/
def Form.size : Form → Nat
  | .leaf _ => 0
  | .list items => items.size
  | .record properties _ => sizeOfFields properties + 1
  | .alternatives nodes => sizeOfItems nodes

theorem size_recordOr_le {properties : Fields} {n : Nat} (h : sizeOfFields properties < n)
    (required : List String) (otherwise : Shape) :
    (recordOr properties required otherwise).size ≤ n := by
  rw [recordOr]
  split
  · exact Nat.zero_le _
  · exact h

theorem size_mergedForm_le (schema : Fields) : (mergedForm schema).size ≤ (Json.obj schema).size :=
  size_recordOr_le
    (Nat.lt_of_le_of_lt (sizeOfFields_mergedProperties_le schema) (Json.sizeAt_lt _ _)) _ _

theorem size_alternativesUnder_le (schema : Fields) (key : String) :
    (alternativesUnder schema key).size ≤ (Json.obj schema).size :=
  Nat.le_trans (sizeOfItems_under_le (.obj schema) key) (Nat.le_of_lt (Json.sizeAt_lt _ _))

theorem size_listForm_le (schema : Fields) : (listForm schema).size ≤ (Json.obj schema).size := by
  have hitems := Nat.le_of_lt (Json.sizeAt_lt (.obj schema) "items")
  unfold listForm
  split
  · next hget =>
    rw [sizeAt, show (Json.obj schema).get? "items" = _ from hget] at hitems
    exact hitems
  · exact Nat.zero_le _

theorem size_objectForm_le (schema : Fields) :
    (objectForm schema).size ≤ (Json.obj schema).size :=
  size_recordOr_le
    (Nat.lt_of_le_of_lt (sizeOfFields_override_nil_le _) (sizeOfFields_properties_lt _)) _ _

theorem size_typedForm_le (schema : Fields) : (typedForm schema).size ≤ (Json.obj schema).size := by
  unfold typedForm
  split
  · exact Nat.zero_le _
  · split
    · exact size_listForm_le schema
    · split
      · exact size_objectForm_le schema
      · split
        · exact Nat.zero_le _
        · exact Nat.zero_le _
  · exact Nat.zero_le _

/-- **What a form is made of stands in its node, and no part of it twice.** -/
theorem size_form_le (node : Json) : (form node).size ≤ node.size := by
  unfold form
  split
  · next fields =>
    dsimp only
    split
    · exact Nat.zero_le _
    · split
      · exact Nat.zero_le _
      · split
        · exact size_mergedForm_le fields
        · split
          · exact size_alternativesUnder_le fields "anyOf"
          · split
            · exact size_alternativesUnder_le fields "oneOf"
            · exact size_typedForm_le fields
  · exact Nat.zero_le _

end Schema

end ToolShape
