import ToolShape.Proofs.Conversion.Steps

/-!
# Every conversion gives a well-formed shape

> **Whatever the schema, the limit and the source of suffixes, every shape inside a result is
> formed** (`Shape.Formed`): unions are in normal form, literals list something and nothing twice,
> records have fields, of different names, and a field that may be left out accepts `null`.

Two facts carry this. The union rule re-establishes it from alternatives of which every part is
formed (`Shape.allFormed_unionOf`); it flattens a single level, and a formed union has no unions
among its members. And the properties of a form name no field twice (`Schema.sound_form`).

The same induction bounds the nesting: each list and each record on a way down from the top uses up
a level of the limit. The top record of a tool is the exception twice over, as it may be without
fields and stands above the limit.
-/

set_option autoImplicit false

namespace ToolShape

open Json (Fields)
open Name (Context)

/-! ## Well-formed shapes -/

/-- The shapes that stand inside a shape, itself among them. -/
inductive Shape.HasPart : Shape → Shape → Prop where
  | self (s : Shape) : HasPart s s
  | item {items t : Shape} (inner : HasPart items t) : HasPart (.sequence items) t
  | field {r : RecordShape} {f : FieldShape} {t : Shape} (mem : f ∈ r.fields)
    (inner : HasPart f.shape t) : HasPart (.record r) t
  | member {ms : List Shape} {s t : Shape} (mem : s ∈ ms) (inner : HasPart s t) :
    HasPart (.union ms) t

/-- A record names no field twice, and each of its optional fields accepts what it stands for when
it is left out. -/
structure RecordShape.Consistent (r : RecordShape) : Prop where
  names_nodup : r.fieldNames.Nodup
  acceptsNull : ∀ f ∈ r.fields, f.required = false → f.shape.acceptsNull = true
  accepts_default : ∀ f ∈ r.fields, ∀ v, f.default? = some v → f.shape.issues v = []

/-- What every shape inside a result is. Only the top of the shape is looked at. -/
def Shape.Formed : Shape → Prop
  | .literal values => values ≠ [] ∧ values.Nodup
  | .record r => r.fields ≠ [] ∧ r.Consistent
  | .union ms => (Shape.union ms).Normal
  | _ => True

/-- Every shape inside a shape is formed. -/
def Shape.AllFormed (s : Shape) : Prop := ∀ t, s.HasPart t → t.Formed

mutual

/-- The greatest number of records and lists on a way down from the top. -/
def Shape.height : Shape → Nat
  | .sequence items => items.height + 1
  | .record r => r.height
  | .union members => Shape.heightOfAll members
  | _ => 0

def RecordShape.height : RecordShape → Nat
  | ⟨_, fields⟩ => FieldShape.heightOfAll fields + 1

def Shape.heightOfAll : List Shape → Nat
  | [] => 0
  | s :: rest => max s.height (Shape.heightOfAll rest)

def FieldShape.heightOfAll : List FieldShape → Nat
  | [] => 0
  | ⟨_, shape, _, _⟩ :: rest => max shape.height (FieldShape.heightOfAll rest)

end

/-- A record at the top of a result: it may be without fields, and stands above the limit. -/
structure RecordShape.FormedTop (limit : Nat) (r : RecordShape) : Prop where
  consistent : r.Consistent
  parts : ∀ f ∈ r.fields, f.shape.AllFormed
  height_le : r.height ≤ limit + 1

/-! ## Nesting -/

namespace Shape

theorem heightOfAll_le_iff {members : List Shape} {n : Nat} :
    heightOfAll members ≤ n ↔ ∀ s ∈ members, s.height ≤ n := by
  induction members with
  | nil => simp [heightOfAll]
  | cons s rest ih => rw [heightOfAll, Nat.max_le, List.forall_mem_cons, ih]

theorem height_union_le_iff {members : List Shape} {n : Nat} :
    (union members).height ≤ n ↔ ∀ s ∈ members, s.height ≤ n := by
  rw [height, heightOfAll_le_iff]

theorem height_le_of_mem_members {s t : Shape} {n : Nat} (h : s.height ≤ n)
    (ht : t ∈ s.members) : t.height ≤ n := by
  cases s with
  | union ms => exact height_union_le_iff.mp h t ht
  | _ => rwa [List.mem_singleton.mp ht]

theorem height_unionOf_le {alternatives : List Shape} {n : Nat}
    (h : ∀ s ∈ alternatives, s.height ≤ n) : (unionOf alternatives).height ≤ n := by
  have hflat : ∀ t ∈ alternatives.flatMap members, t.height ≤ n := by
    intro t ht
    obtain ⟨s, hs, hmem⟩ := List.mem_flatMap.mp ht
    exact height_le_of_mem_members (h s hs) hmem
  refine unionOf_induct alternatives ?_ hflat fun ms _ hmem _ => ?_
  · simp [height]
  · exact height_union_le_iff.mpr fun s hs => hflat s (hmem s hs)

end Shape

theorem FieldShape.heightOfAll_le_iff {fields : List FieldShape} {n : Nat} :
    FieldShape.heightOfAll fields ≤ n ↔ ∀ f ∈ fields, f.shape.height ≤ n := by
  induction fields with
  | nil => simp [FieldShape.heightOfAll]
  | cons f rest ih =>
    obtain ⟨name, shape, required, description⟩ := f
    rw [FieldShape.heightOfAll, Nat.max_le, List.forall_mem_cons, ih]

theorem RecordShape.height_le_succ_iff {r : RecordShape} {n : Nat} :
    r.height ≤ n + 1 ↔ ∀ f ∈ r.fields, f.shape.height ≤ n := by
  obtain ⟨name, fields⟩ := r
  rw [RecordShape.height, Nat.succ_le_succ_iff, FieldShape.heightOfAll_le_iff]

/-! ## How parts are formed -/

namespace Shape

theorem AllFormed.formed {s : Shape} (h : s.AllFormed) : s.Formed := h s (.self s)

theorem AllFormed.normal {s : Shape} (h : s.AllFormed) : s.Normal := by
  cases s with
  | union ms => exact h.formed
  | _ => trivial

theorem AllFormed.of_mem_members {s t : Shape} (h : s.AllFormed) (ht : t ∈ s.members) :
    t.AllFormed := by
  cases s with
  | union ms => exact fun u hu => h u (.member ht hu)
  | _ => rwa [List.mem_singleton.mp ht]

theorem allFormed_unknown : unknown.AllFormed := by
  rintro t ⟨⟩
  trivial

theorem allFormed_scalar (kind : Scalar) : (scalar kind).AllFormed := by
  rintro t ⟨⟩
  trivial

theorem allFormed_mapping : mapping.AllFormed := by
  rintro t ⟨⟩
  trivial

theorem allFormed_literalOf {values : List String} (h : values ≠ []) :
    (literalOf values).AllFormed := by
  rintro t ⟨⟩
  refine ⟨fun hnil => h ?_, Schema.nodup_eraseDups values⟩
  refine List.eq_nil_iff_forall_not_mem.mpr fun s hs => ?_
  have hmem : s ∈ values.eraseDups := List.mem_eraseDups.mpr hs
  rw [hnil] at hmem
  cases hmem

theorem allFormed_sequence {items : Shape} (h : items.AllFormed) : (sequence items).AllFormed := by
  intro t ht
  cases ht with
  | self => trivial
  | item inner => exact h t inner

theorem allFormed_record {r : RecordShape} (hne : r.fields ≠ []) (hcons : r.Consistent)
    (h : ∀ f ∈ r.fields, f.shape.AllFormed) : (record r).AllFormed := by
  intro t ht
  cases ht with
  | self => exact ⟨hne, hcons⟩
  | field mem inner => exact h _ mem t inner

/-- **The union rule keeps every part formed.** -/
theorem allFormed_unionOf {alternatives : List Shape} (h : ∀ s ∈ alternatives, s.AllFormed) :
    (unionOf alternatives).AllFormed := by
  have hflat : ∀ t ∈ alternatives.flatMap members, t.AllFormed := by
    intro t ht
    obtain ⟨s, hs, hmem⟩ := List.mem_flatMap.mp ht
    exact (h s hs).of_mem_members hmem
  have hnormal : (unionOf alternatives).Normal := normal_unionOf fun s hs => (h s hs).normal
  refine unionOf_induct (motive := fun s => s.Normal → s.AllFormed) alternatives
    (fun _ => allFormed_unknown) (fun s hs _ => hflat s hs) ?_ hnormal
  intro ms _ hmem _ hunion t ht
  cases ht with
  | self => exact hunion
  | member mem inner => exact hflat _ (hmem _ mem) t inner

theorem allFormed_nullable {s : Shape} (h : s.AllFormed) : s.nullable.AllFormed :=
  allFormed_unionOf (by simpa using ⟨h, allFormed_scalar .null⟩)

theorem height_nullable_le {s : Shape} {n : Nat} (h : s.height ≤ n) : s.nullable.height ≤ n :=
  height_unionOf_le (by simp [h, height])

end Shape

/-- Shapes known at once are formed, and hold at most one list. -/
theorem Schema.Plain.formed {s : Shape} (h : Schema.Plain s) : s.AllFormed ∧ s.height ≤ 1 := by
  induction h with
  | unknown => exact ⟨Shape.allFormed_unknown, by simp [Shape.height]⟩
  | scalar kind => exact ⟨Shape.allFormed_scalar kind, by simp [Shape.height]⟩
  | literal hne => exact ⟨Shape.allFormed_literalOf hne, by simp [Shape.literalOf, Shape.height]⟩
  | untypedSequence =>
    exact ⟨Shape.allFormed_sequence Shape.allFormed_unknown, by simp [Shape.height]⟩
  | mapping => exact ⟨Shape.allFormed_mapping, by simp [Shape.height]⟩
  | unionOf _ ih =>
    exact ⟨Shape.allFormed_unionOf fun s hs => (ih s hs).1,
      Shape.height_unionOf_le fun s hs => (ih s hs).2⟩

/-! ## The conversion, level by level -/

namespace Converter

/-- What is shown of every node: its parts are formed, and it nests no deeper than the levels
left. -/
def FormedWithin (levels : Nat) (s : Shape) : Prop := s.AllFormed ∧ s.height ≤ levels

theorem formedWithin_field {levels : Nat} {shape : Shape} (h : FormedWithin levels shape)
    (required : List String) (name : String) (schema : Json) :
    FormedWithin levels (field required name schema shape).shape := by
  unfold field
  split
  · exact h
  · exact ⟨Shape.allFormed_nullable h.1, Shape.height_nullable_le h.2⟩

variable {levels : Nat}

/-- A record of properties with different names is consistent, whatever its nodes resolve to. -/
theorem consistent_resolveRecord (converter : Converter) (resolution : Resolution)
    (context : Context) {properties : Fields} (hnodup : properties.keys.Nodup)
    (required : List String) (position : Nat) :
    (converter.resolveRecord resolution context properties required position).value.Consistent := by
  have hnull : ∀ f ∈ (resolveFields resolution required properties position).value,
      f.required = false → f.shape.acceptsNull = true := by
    intro f hf hopt
    obtain ⟨shape, hshape⟩ := (forall_mem_resolveFields_required _ _ _ _ f hf).2 hopt
    rw [hshape]
    exact Shape.acceptsNull_iff.mpr (Shape.accepts_nullable_iff.mpr (Or.inl rfl))
  refine ⟨?_, ?_, ?_⟩
  · rw [RecordShape.fieldNames, fields_resolveRecord, names_resolveFields]
    exact hnodup
  · rwa [fields_resolveRecord]
  · rw [fields_resolveRecord]
    intro f hf v hv
    -- Only an optional field has a default, and then it is `null`.
    unfold FieldShape.default? at hv
    split at hv
    · cases hv
    · next hopt =>
      cases hv
      have hacc := hnull f hf (Bool.eq_false_iff.mpr hopt)
      exact Shape.issues_eq_nil_iff.mpr (Shape.acceptsNull_iff.mp hacc)

/-- A record built from properties of different names is a formed record, once its nodes are. -/
theorem formedTop_resolveRecord (converter : Converter) {resolution : Resolution}
    (h : ∀ node context position, FormedWithin levels (resolution node context position).value)
    (context : Context) {properties : Fields} (hnodup : properties.keys.Nodup)
    (required : List String) (position : Nat) :
    (converter.resolveRecord resolution context properties required position).value.FormedTop
      levels := by
  have hfields : ∀ f ∈ (resolveFields resolution required properties position).value,
      FormedWithin levels f.shape := by
    intro f hf
    obtain ⟨name, schema, shape, hshape, rfl⟩ :=
      forall_mem_resolveFields h required properties position f hf
    exact formedWithin_field hshape required name schema
  refine ⟨consistent_resolveRecord converter resolution context hnodup required position, ?_, ?_⟩
  · rw [fields_resolveRecord]
    exact fun f hf => (hfields f hf).1
  · rw [RecordShape.height_le_succ_iff, fields_resolveRecord]
    exact fun f hf => (hfields f hf).2

theorem value_resolveRecord_fields_ne_nil (converter : Converter) {resolution : Resolution}
    {properties : Fields} (h : properties ≠ []) (context : Context) (required : List String)
    (position : Nat) :
    (converter.resolveRecord resolution context properties required position).value.fields ≠
      [] := by
  rw [fields_resolveRecord]
  intro hnil
  have hnames := names_resolveFields resolution required properties position
  rw [hnil] at hnames
  exact h (List.map_eq_nil_iff.mp hnames.symm)

/-- **Every node resolves to a shape whose parts are formed**, and which nests no deeper than the
levels left. By induction on the levels; the cases are those of the node's form. -/
theorem formedWithin_resolveWithin (converter : Converter) (levels : Nat) :
    ∀ node context position,
      FormedWithin levels (converter.resolveWithin levels node context position).value := by
  induction levels with
  | zero =>
    intro node context position
    rw [resolveWithin_zero]
    exact ⟨Shape.allFormed_unknown, by simp [Shape.height]⟩
  | succ levels ih =>
    intro node context position
    cases hform : Schema.form node with
    | leaf shape =>
      rw [resolveWithin_leaf hform]
      -- A list of any values is the deepest that a node gives at once, and it uses this level up.
      obtain ⟨hformed, hheight⟩ := (Schema.plain_of_form hform).formed
      exact ⟨hformed, Nat.le_trans hheight (Nat.succ_le_succ (Nat.zero_le levels))⟩
    | list items =>
      rw [resolveWithin_list hform]
      obtain ⟨hformed, hheight⟩ := ih items context.item position
      exact ⟨Shape.allFormed_sequence hformed, by simpa [Shape.height] using hheight⟩
    | record properties required =>
      rw [resolveWithin_record hform]
      obtain ⟨hne, hnodup⟩ := Schema.properties_of_form hform
      have htop := formedTop_resolveRecord converter ih context hnodup required position
      exact ⟨Shape.allFormed_record
        (value_resolveRecord_fields_ne_nil converter hne context required position)
        htop.consistent htop.parts, by simpa [Shape.height] using htop.height_le⟩
    | alternatives nodes =>
      rw [resolveWithin_alternatives hform]
      have hstring : FormedWithin levels .string :=
        ⟨Shape.allFormed_scalar .string, by simp [Shape.height]⟩
      have hall := forall_mem_resolveAlternatives hstring ih context nodes position
      exact ⟨Shape.allFormed_unionOf fun s hs => (hall s hs).1,
        Shape.height_unionOf_le fun s hs => Nat.le_succ_of_le (hall s hs).2⟩

theorem formedTop_buildRecord (converter : Converter) (context : Context) (properties : Fields)
    (required : List String) (position : Nat) :
    (converter.buildRecord context properties required position).value.FormedTop
      converter.maxDepth :=
  formedTop_resolveRecord converter (formedWithin_resolveWithin converter converter.maxDepth) context
    (Schema.nodup_keys_override_nil properties) required position

theorem formedTop_convert (converter : Converter) (toolName : String) (schema : Json)
    (position : Nat) :
    (converter.convert toolName schema position).value.FormedTop converter.maxDepth := by
  rw [convert_apply]
  exact formedTop_buildRecord converter _ _ _ position

/-- **All results are well-formed.** Whatever is converted, resolved or built, from any source at
any position, and with any limit. -/
theorem results_wellFormed (converter : Converter) (position : Nat) :
    (∀ toolName schema, (converter.convert toolName schema position).value.FormedTop
      converter.maxDepth) ∧
    (∀ context properties required,
      (converter.buildRecord context properties required position).value.FormedTop
        converter.maxDepth) ∧
    ∀ node context,
      (converter.resolve node context position).value.AllFormed ∧
      (converter.resolve node context position).value.height ≤ converter.maxDepth := by
  refine ⟨fun toolName schema => ?_, fun context properties required => ?_, fun node context => ?_⟩
  · rw [convert_apply]
    exact formedTop_buildRecord converter _ _ _ position
  · exact formedTop_buildRecord converter context properties required position
  · exact formedWithin_resolveWithin converter converter.maxDepth node context position

end Converter

end ToolShape
