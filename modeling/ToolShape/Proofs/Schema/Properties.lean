import ToolShape.Schema.Properties
import Mathlib.Data.List.Nodup

/-!
# Properties gathered from several nodes

Properties are gathered by setting one name after another, and what counts in the end is which
schema stands under which name. So each way of gathering has an equation for `Fields.get?`, and
they add up to the rule of an `allOf`:

> **A name has the schema of the last branch that declares it for itself, and otherwise that of the
> first variant that declares it** (`Schema.get?_mergedProperties`).

That no name stands twice needs no promise about the schema: setting a name that is there already
changes its schema and adds no second one. So the names of an `allOf` are those that its branches
declare, in the order in which they are first read (`Schema.keys_mergedProperties`).
-/

set_option autoImplicit false

namespace ToolShape

open Json (Fields)

/-! ## Looking up a name -/

namespace Json.Fields

theorem get?_append (a b : Fields) (name : String) :
    get? (a ++ b) name = (a.get? name).or (b.get? name) := by
  induction a with
  | nil => rfl
  | cons p rest ih =>
    obtain ⟨k, v⟩ := p
    by_cases h : k = name <;> simp [get?, h, ih]

theorem get?_put (fields : Fields) (key : String) (value : Json) (name : String) :
    (fields.put key value).get? name = (get? [(key, value)] name).or (fields.get? name) := by
  by_cases h : key = name
  · subst h
    simp [get?_put_self, get?]
  · simp [get?_put_of_ne fields value h, get?, h]

theorem get?_putNew (fields : Fields) (key : String) (value : Json) (name : String) :
    (fields.putNew key value).get? name = (fields.get? name).or (get? [(key, value)] name) := by
  unfold putNew has
  by_cases h : key = name
  · subst h
    cases hkey : fields.get? key with
    | none => simp [get?_put_self, get?]
    | some v => simp [hkey]
  · split
    · simp [get?, h]
    · simp [get?_put_of_ne fields value h, get?, h]

theorem eq_nil_iff_get?_eq_none {fields : Fields} :
    fields = [] ↔ ∀ name, fields.get? name = none := by
  constructor
  · rintro rfl name
    rfl
  · intro h
    cases fields with
    | nil => rfl
    | cons p rest => simpa [get?] using h p.1

theorem has_iff_mem_keys {fields : Fields} {name : String} :
    fields.has name = true ↔ name ∈ fields.keys := by
  induction fields with
  | nil => simp [has, get?, keys]
  | cons p rest ih =>
    obtain ⟨k, v⟩ := p
    simp only [has, keys] at ih
    by_cases h : k = name
    · simp [has, get?, keys, h]
    · have h' : ¬ name = k := fun e => h e.symm
      simp [has, get?, keys, h, h', ih]

theorem has_of_get?_eq_some {fields : Fields} {key : String} {value : Json}
    (h : fields.get? key = some value) : fields.has key = true := by
  rw [has, h, Option.isSome_some]

theorem isEmpty_eq_false_of_has {fields : Fields} {key : String} (h : fields.has key = true) :
    fields.isEmpty = false := by
  cases fields with
  | nil => cases h
  | cons p rest => rfl

/-- Among keys that are pairwise different, looking up is membership. -/
theorem get?_eq_some_iff_mem {fields : Fields} (h : fields.keys.Nodup) {name : String}
    {value : Json} : fields.get? name = some value ↔ (name, value) ∈ fields := by
  induction fields with
  | nil => simp [get?]
  | cons p rest ih =>
    obtain ⟨k, v⟩ := p
    obtain ⟨hnew, hrest⟩ := List.nodup_cons.mp h
    by_cases hk : k = name
    · subst hk
      have hnot : (k, value) ∉ rest := fun hmem => hnew (List.mem_map.mpr ⟨_, hmem, rfl⟩)
      simp [get?, hnot, eq_comm]
    · have hk' : ¬ name = k := fun e => hk e.symm
      simp [get?, hk, hk', ih hrest]

/-- Among keys that are pairwise different, the order does not count. -/
theorem get?_eq_of_perm {a b : Fields} (hperm : a.Perm b) (hnodup : a.keys.Nodup) (key : String) :
    a.get? key = b.get? key := by
  have hnodup' : b.keys.Nodup := (hperm.map Prod.fst).nodup_iff.mp hnodup
  refine Option.ext fun value => ?_
  rw [get?_eq_some_iff_mem hnodup, get?_eq_some_iff_mem hnodup', hperm.mem_iff]

/-- Among keys that are pairwise different, a key has one place. -/
theorem exists_split_of_mem_keys {fields : Fields} {key : String} (h : key ∈ fields.keys)
    (hnodup : fields.keys.Nodup) :
    ∃ (before : Fields) (value : Json) (after : Fields),
      fields = before ++ (key, value) :: after ∧ key ∉ before.keys ∧ key ∉ after.keys := by
  obtain ⟨⟨key, value⟩, hmem, rfl⟩ := List.mem_map.mp h
  obtain ⟨before, after, rfl⟩ := List.append_of_mem hmem
  rw [keys, List.map_append, List.map_cons, List.nodup_middle, List.nodup_cons,
    List.mem_append, not_or] at hnodup
  exact ⟨before, value, after, rfl, hnodup.1⟩

end Json.Fields

namespace Schema

/-- Setting properties in turn: the last schema of a name counts. -/
theorem get?_override (kept new : Fields) (name : String) :
    (override kept new).get? name = (Fields.get? new.reverse name).or (kept.get? name) := by
  induction new generalizing kept with
  | nil => rfl
  | cons p rest ih =>
    obtain ⟨k, v⟩ := p
    rw [override, ih, Fields.get?_put, List.reverse_cons, Fields.get?_append, Option.or_assoc]

/-- Adding properties in turn: the first schema of a name counts. -/
theorem get?_supplement (kept new : Fields) (name : String) :
    (supplement kept new).get? name = (kept.get? name).or (new.get? name) := by
  induction new generalizing kept with
  | nil => simp [supplement, Fields.get?]
  | cons p rest ih =>
    obtain ⟨k, v⟩ := p
    rw [supplement, ih, Fields.get?_putNew, Option.or_assoc, ← Fields.get?_append]
    rfl

theorem get?_foldl_supplement (kept : Fields) (nodes : List Json) (name : String) :
    (nodes.foldl (fun kept node => supplement kept (properties node)) kept).get? name =
      (kept.get? name).or (Fields.get? (nodes.flatMap properties) name) := by
  induction nodes generalizing kept with
  | nil => simp [Fields.get?]
  | cons node rest ih =>
    rw [List.foldl_cons, ih, get?_supplement, Option.or_assoc, List.flatMap_cons,
      Fields.get?_append]

/-- What the branches of an `allOf` declare, as a list in which the first schema of a name counts:
their own properties from the last to the first, and then those of their variants. -/
def declarations (branches : List Json) : Fields :=
  (branches.flatMap properties).reverse ++
    branches.flatMap fun branch => (variants branch).flatMap properties

theorem get?_foldl_addBranch (kept : Fields) (branches : List Json) (name : String) :
    (branches.foldl addBranch kept).get? name =
      (Fields.get? (branches.flatMap properties).reverse name).or ((kept.get? name).or
        (Fields.get? (branches.flatMap fun branch => (variants branch).flatMap properties) name)) := by
  induction branches generalizing kept with
  | nil => simp [Fields.get?]
  | cons branch rest ih =>
    rw [List.foldl_cons, ih, addBranch, get?_foldl_supplement, get?_override, List.flatMap_cons,
      List.flatMap_cons, List.reverse_append, Fields.get?_append, Fields.get?_append]
    simp only [Option.or_assoc]

/-- **The merge of an `allOf`, name by name.** -/
theorem get?_mergedProperties (branches : List Json) (name : String) :
    (mergedProperties branches).get? name = (declarations branches).get? name := by
  rw [mergedProperties, get?_foldl_addBranch, declarations, Fields.get?_append]
  rfl

/-- Properties declared by one node alone. -/
theorem get?_override_nil (new : Fields) (name : String) :
    (override [] new).get? name = Fields.get? new.reverse name := by
  rw [get?_override]
  simp [Fields.get?]

/-! ## Which names stand there, and in what order

Setting a name keeps the place where it was first seen. So the names are those read so far, each at
its first occurrence, and none stands twice. -/

theorem nodup_eraseDups : ∀ values : List String, values.eraseDups.Nodup
  | [] => by simp
  | s :: rest => by
    rw [List.eraseDups_cons, List.nodup_cons, List.mem_eraseDups]
    exact ⟨by simp, nodup_eraseDups (rest.filter fun other => !other == s)⟩
termination_by values => values.length
decreasing_by exact Nat.lt_succ_of_le (List.length_filter_le _ rest)

variable {kept : Fields} {seen : List String}

theorem keys_put_eq_eraseDups (h : kept.keys = seen.eraseDups) (key : String) (value : Json) :
    (kept.put key value).keys = (seen ++ [key]).eraseDups := by
  have hkey : [key].eraseDups = [key] := rfl
  rw [Fields.keys_put, h, List.eraseDups_append, List.removeAll]
  by_cases hseen : key ∈ seen <;> simp [hseen, hkey]

theorem keys_putNew_eq_eraseDups (h : kept.keys = seen.eraseDups) (key : String) (value : Json) :
    (kept.putNew key value).keys = (seen ++ [key]).eraseDups := by
  rw [← keys_put_eq_eraseDups h key value, Fields.putNew]
  split
  · next hhas => rw [Fields.keys_put, if_pos (Fields.has_iff_mem_keys.mp hhas)]
  · rfl

theorem keys_override (h : kept.keys = seen.eraseDups) (new : Fields) :
    (override kept new).keys = (seen ++ new.keys).eraseDups := by
  induction new generalizing kept seen with
  | nil => simpa [override, Fields.keys] using h
  | cons p rest ih =>
    rw [override, ih (keys_put_eq_eraseDups h p.1 p.2), List.append_assoc]
    rfl

theorem keys_supplement (h : kept.keys = seen.eraseDups) (new : Fields) :
    (supplement kept new).keys = (seen ++ new.keys).eraseDups := by
  induction new generalizing kept seen with
  | nil => simpa [supplement, Fields.keys] using h
  | cons p rest ih =>
    rw [supplement, ih (keys_putNew_eq_eraseDups h p.1 p.2), List.append_assoc]
    rfl

theorem keys_foldl_supplement (h : kept.keys = seen.eraseDups) (nodes : List Json) :
    (nodes.foldl (fun kept node => supplement kept (properties node)) kept).keys =
      (seen ++ nodes.flatMap fun node => (properties node).keys).eraseDups := by
  induction nodes generalizing kept seen with
  | nil => simpa using h
  | cons node rest ih =>
    rw [List.foldl_cons, ih (keys_supplement h (properties node)), List.append_assoc,
      List.flatMap_cons]

/-- The names that a branch declares, as they are read: its own properties before those of its
variants. -/
def sightingsIn (branch : Json) : List String :=
  (properties branch).keys ++ (variants branch).flatMap fun variant => (properties variant).keys

/-- The names that branches declare, as they are read, branch by branch. -/
def sightings (branches : List Json) : List String := branches.flatMap sightingsIn

theorem keys_addBranch (h : kept.keys = seen.eraseDups) (branch : Json) :
    (addBranch kept branch).keys = (seen ++ sightingsIn branch).eraseDups := by
  rw [addBranch, keys_foldl_supplement (keys_override h (properties branch)), List.append_assoc,
    sightingsIn]

theorem keys_foldl_addBranch (h : kept.keys = seen.eraseDups) (branches : List Json) :
    (branches.foldl addBranch kept).keys = (seen ++ sightings branches).eraseDups := by
  induction branches generalizing kept seen with
  | nil => simpa [sightings] using h
  | cons branch rest ih =>
    rw [List.foldl_cons, ih (keys_addBranch h branch), List.append_assoc, sightings, sightings,
      List.flatMap_cons]

/-- **The names of an `allOf`**: what its branches declare, in the order of first sight. -/
theorem keys_mergedProperties (branches : List Json) :
    (mergedProperties branches).keys = (sightings branches).eraseDups :=
  @keys_foldl_addBranch [] [] rfl branches

theorem nodup_keys_mergedProperties (branches : List Json) :
    (mergedProperties branches).keys.Nodup := by
  rw [keys_mergedProperties]
  exact nodup_eraseDups _

theorem nodup_keys_override_nil (new : Fields) : (override [] new).keys.Nodup := by
  rw [@keys_override [] [] rfl]
  exact nodup_eraseDups _

end Schema

end ToolShape
