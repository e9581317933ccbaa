import ToolShape.Shape.Equality
import Mathlib.Data.List.Forall2

/-!
# Induction over shapes

A shape, its fields and its members are one mutual family, and a proof by hand would walk all of it
each time. `Shape.induct` is the walk, made once: a property of shapes holds of all of them when it
passes from the members to a union, from the items to a list, and from the fields to a record.

The functions of the family come with a twin on lists for each kind of list. The second section says
what each twin is, so that proofs by `Shape.induct` meet lists as lists.
-/

set_option autoImplicit false

namespace ToolShape

namespace Shape

/-- **Induction over shapes.** The cases follow the constructors; a record is taken apart into its
name and its fields, and the hypotheses for lists are about their members. -/
@[elab_as_elim, induction_eliminator]
theorem induct {motive : Shape → Prop}
    (unknown : motive .unknown)
    (scalar : ∀ kind, motive (.scalar kind))
    (literal : ∀ values, motive (.literal values))
    (sequence : ∀ items, motive items → motive (.sequence items))
    (mapping : motive .mapping)
    (record : ∀ name fields, (∀ f ∈ fields, motive f.shape) → motive (.record ⟨name, fields⟩))
    (union : ∀ members, (∀ s ∈ members, motive s) → motive (.union members)) (s : Shape) :
    motive s :=
  @Shape.rec motive
    (fun r => motive (.record r))
    (fun f => motive f.shape)
    (fun members => ∀ s ∈ members, motive s)
    (fun fields => ∀ f ∈ fields, motive f.shape)
    unknown scalar literal sequence mapping
    (fun _ ih => ih)
    union
    record
    (fun _ _ _ _ ih => ih)
    (by simp)
    (fun _ _ first others => by simpa using ⟨first, others⟩)
    (by simp)
    (fun _ _ first others => by simpa using ⟨first, others⟩)
    s

end Shape

/-! ## The twins on lists -/

theorem Shape.recordsOfAll_eq_flatMap (members : List Shape) :
    Shape.recordsOfAll members = members.flatMap Shape.records := by
  induction members with
  | nil => rfl
  | cons s rest ih => rw [Shape.recordsOfAll, ih, List.flatMap_cons]

theorem FieldShape.recordsOfAll_eq_flatMap (fields : List FieldShape) :
    FieldShape.recordsOfAll fields = fields.flatMap (·.shape.records) := by
  induction fields with
  | nil => rfl
  | cons f rest ih =>
    obtain ⟨name, shape, required, description⟩ := f
    rw [FieldShape.recordsOfAll, ih, List.flatMap_cons]

namespace Shape

@[simp] theorem records_sequence (items : Shape) : (sequence items).records = items.records := by
  rw [records]

@[simp] theorem records_record (name : String) (fields : List FieldShape) :
    (record ⟨name, fields⟩).records = fields.flatMap (·.shape.records) ++ [⟨name, fields⟩] := by
  rw [records, RecordShape.records, FieldShape.recordsOfAll_eq_flatMap]

@[simp] theorem records_union (members : List Shape) :
    (union members).records = members.flatMap records := by
  rw [records, recordsOfAll_eq_flatMap]

/-! The records of a part are records of the whole. -/

theorem mem_records_self (name : String) (fields : List FieldShape) :
    ⟨name, fields⟩ ∈ (record ⟨name, fields⟩).records := by
  rw [records_record]
  exact List.mem_append_right _ (List.mem_singleton_self _)

theorem mem_records_of_field {name : String} {fields : List FieldShape} {f : FieldShape}
    {r : RecordShape} (hf : f ∈ fields) (hr : r ∈ f.shape.records) :
    r ∈ (record ⟨name, fields⟩).records := by
  rw [records_record]
  exact List.mem_append_left _ (List.mem_flatMap.mpr ⟨f, hf, hr⟩)

theorem mem_records_of_member {members : List Shape} {s : Shape} {r : RecordShape}
    (hs : s ∈ members) (hr : r ∈ s.records) : r ∈ (union members).records := by
  rw [records_union]
  exact List.mem_flatMap.mpr ⟨s, hs, hr⟩

/-- Something holds of every record in a shape. -/
def EachRecord (holds : RecordShape → Prop) (s : Shape) : Prop := ∀ r ∈ s.records, holds r

section

variable {holds : RecordShape → Prop}

theorem eachRecord_sequence_iff {items : Shape} :
    (sequence items).EachRecord holds ↔ items.EachRecord holds := by
  rw [EachRecord, records_sequence, EachRecord]

theorem eachRecord_record_iff {name : String} {fields : List FieldShape} :
    (record ⟨name, fields⟩).EachRecord holds ↔
      (∀ f ∈ fields, f.shape.EachRecord holds) ∧ holds ⟨name, fields⟩ := by
  simp only [EachRecord, records_record, List.forall_mem_append, List.forall_mem_flatMap,
    List.forall_mem_singleton]

theorem eachRecord_union_iff {members : List Shape} :
    (union members).EachRecord holds ↔ ∀ s ∈ members, s.EachRecord holds := by
  simp only [EachRecord, records_union, List.forall_mem_flatMap]

end

/-- The names of the records in a shape, nested ones first. -/
def recordNames (s : Shape) : List String := s.records.map RecordShape.name

@[simp] theorem recordNames_unknown : unknown.recordNames = [] := rfl
@[simp] theorem recordNames_scalar (kind : Scalar) : (scalar kind).recordNames = [] := rfl
@[simp] theorem recordNames_literal (values : List String) : (literal values).recordNames = [] := rfl
@[simp] theorem recordNames_mapping : mapping.recordNames = [] := rfl

@[simp] theorem recordNames_sequence (items : Shape) :
    (sequence items).recordNames = items.recordNames := by
  rw [recordNames, records_sequence, recordNames]

@[simp] theorem recordNames_record (name : String) (fields : List FieldShape) :
    (record ⟨name, fields⟩).recordNames = fields.flatMap (·.shape.recordNames) ++ [name] := by
  simp [recordNames, List.map_flatMap]

@[simp] theorem recordNames_union (members : List Shape) :
    (union members).recordNames = members.flatMap recordNames := by
  simp only [recordNames, records_union, List.map_flatMap]
  rfl

theorem sameAll_iff {as bs : List Shape} :
    sameAll as bs = true ↔ List.Forall₂ (fun a b => a.same b = true) as bs := by
  induction as generalizing bs with
  | nil => cases bs <;> simp [sameAll]
  | cons a rest ih => cases bs <;> simp [sameAll, ih]

end Shape

/-- Two fields are the same part by part. -/
def FieldShape.Same (f g : FieldShape) : Prop :=
  f.name = g.name ∧ f.shape.same g.shape = true ∧ f.required = g.required
    ∧ f.description = g.description

theorem FieldShape.sameAll_iff {fs gs : List FieldShape} :
    FieldShape.sameAll fs gs = true ↔ List.Forall₂ FieldShape.Same fs gs := by
  induction fs generalizing gs with
  | nil => cases gs <;> simp [FieldShape.sameAll]
  | cons f rest ih =>
    cases gs with
    | nil => simp [FieldShape.sameAll]
    | cons g others =>
      obtain ⟨name, shape, required, description⟩ := f
      obtain ⟨name', shape', required', description'⟩ := g
      simp [FieldShape.sameAll, FieldShape.Same, ih, and_assoc]

end ToolShape
