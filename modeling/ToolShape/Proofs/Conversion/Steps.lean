import ToolShape.Converter
import ToolShape.Proofs.Schema.Form

/-!
# The steps of a conversion

What each part of a conversion gives, as one equation per part: the value, the number of suffixes
drawn, and the events, from a position of the source. Later proofs rewrite with these equations and
open no `do` block. The last section reads off what holds of every field, and of every alternative,
whatever its position.
-/

set_option autoImplicit false

namespace ToolShape.Converter

open Json (Fields)
open Name (Context)

/-! ## Fields -/

theorem field_of_mem {required : List String} {name : String} (h : name ∈ required) (schema : Json)
    (shape : Shape) :
    field required name schema shape = .mandatory name shape (Schema.describe schema) := by
  rw [field, if_pos (List.contains_iff_mem.mpr h)]

theorem field_of_not_mem {required : List String} {name : String} (h : name ∉ required)
    (schema : Json) (shape : Shape) :
    field required name schema shape = .optional name shape (Schema.describe schema) := by
  rw [field, if_neg (List.contains_iff_mem.not.mpr h)]

@[simp] theorem resolveFields_nil (resolution : Resolution) (required : List String)
    (position : Nat) : resolveFields resolution required [] position = ⟨[], 0, []⟩ := rfl

theorem resolveFields_cons (resolution : Resolution) (required : List String) (name : String)
    (schema : Json) (rest : Fields) (position : Nat) :
    resolveFields resolution required ((name, schema) :: rest) position =
      let first := resolution schema (Context.ofField name) position
      let others := resolveFields resolution required rest (position + first.drawn)
      ⟨field required name schema first.value :: others.value, first.drawn + others.drawn,
        first.events ++ others.events⟩ := by
  simp [resolveFields]

theorem resolveFields_append (resolution : Resolution) (required : List String)
    (front back : Fields) (position : Nat) :
    resolveFields resolution required (front ++ back) position =
      let first := resolveFields resolution required front position
      let others := resolveFields resolution required back (position + first.drawn)
      ⟨first.value ++ others.value, first.drawn + others.drawn, first.events ++ others.events⟩ := by
  induction front generalizing position with
  | nil => simp
  | cons p rest ih =>
    obtain ⟨name, schema⟩ := p
    rw [List.cons_append, resolveFields_cons, resolveFields_cons]
    dsimp only
    rw [ih]
    simp only [List.cons_append, List.append_assoc, Nat.add_assoc]

/-- Of the required names only those of properties count. -/
theorem resolveFields_congr (resolution : Resolution) {required others : List String}
    {properties : Fields} (h : ∀ name ∈ properties.keys, name ∈ required ↔ name ∈ others)
    (position : Nat) :
    resolveFields resolution required properties position =
      resolveFields resolution others properties position := by
  induction properties generalizing position with
  | nil => rfl
  | cons p rest ih =>
    obtain ⟨name, schema⟩ := p
    obtain ⟨hname, hrest⟩ := List.forall_mem_cons.mp h
    have hfield : field required name schema = field others name schema := by
      funext shape
      simp only [field, List.contains_iff_mem, hname]
    rw [resolveFields_cons, resolveFields_cons]
    dsimp only
    rw [ih hrest, hfield]

theorem resolveRecord_apply (converter : Converter) (resolution : Resolution) (context : Context)
    (properties : Fields) (required : List String) (position : Nat) :
    converter.resolveRecord resolution context properties required position =
      let fields := resolveFields resolution required properties position
      let record : RecordShape :=
        ⟨Name.generated context (converter.source (position + fields.drawn)), fields.value⟩
      ⟨record, fields.drawn + 1, fields.events ++
        [.recordBuilt record.name record.fields.length record.requiredFields.length]⟩ := by
  simp [resolveRecord, nameRecord]

@[simp] theorem fields_resolveRecord (converter : Converter) (resolution : Resolution)
    (context : Context) (properties : Fields) (required : List String) (position : Nat) :
    (converter.resolveRecord resolution context properties required position).value.fields =
      (resolveFields resolution required properties position).value := by
  rw [resolveRecord_apply]

/-! ## Alternatives -/

/-- One alternative: a string when it is pinned, and otherwise what its node resolves to. -/
def resolveAlternative (resolution : Resolution) (context : Context) (node : Json) :
    Conversion Shape :=
  if Schema.isPinned node then pure Shape.string else resolution node context

@[simp] theorem resolveAlternatives_nil (resolution : Resolution) (context : Context)
    (position : Nat) : resolveAlternatives resolution context [] position = ⟨[], 0, []⟩ := rfl

theorem resolveAlternatives_cons (resolution : Resolution) (context : Context) (node : Json)
    (rest : List Json) (position : Nat) :
    resolveAlternatives resolution context (node :: rest) position =
      let first := resolveAlternative resolution context node position
      let others := resolveAlternatives resolution context rest (position + first.drawn)
      ⟨first.value :: others.value, first.drawn + others.drawn, first.events ++ others.events⟩ := by
  cases h : Schema.isPinned node <;> simp [resolveAlternatives, resolveAlternative, h]

theorem resolveAlternative_of_isPinned {node : Json} (h : Schema.isPinned node = true)
    (resolution : Resolution) (context : Context) (position : Nat) :
    resolveAlternative resolution context node position = ⟨.string, 0, []⟩ := by
  rw [resolveAlternative, if_pos h, Conversion.pure_apply]

theorem resolveAlternative_of_not_isPinned {node : Json} (h : Schema.isPinned node = false)
    (resolution : Resolution) (context : Context) (position : Nat) :
    resolveAlternative resolution context node position = resolution node context position := by
  rw [resolveAlternative, h]
  rfl

/-! ## Nodes -/

theorem resolveWithin_zero (converter : Converter) (node : Json) (context : Context)
    (position : Nat) :
    converter.resolveWithin 0 node context position =
      ⟨.unknown, 0,
        [.depthExceeded context.text (converter.maxDepth + 1) converter.maxDepth]⟩ := by
  simp [resolveWithin]

theorem resolveWithin_leaf {node : Json} {shape : Shape} (h : Schema.form node = .leaf shape)
    (converter : Converter) (levels : Nat) (context : Context) (position : Nat) :
    converter.resolveWithin (levels + 1) node context position = ⟨shape, 0, []⟩ := by
  simp [resolveWithin, h]

theorem resolveWithin_list {node items : Json} (h : Schema.form node = .list items)
    (converter : Converter) (levels : Nat) (context : Context) (position : Nat) :
    converter.resolveWithin (levels + 1) node context position =
      let inner := converter.resolveWithin levels items context.item position
      ⟨.sequence inner.value, inner.drawn, inner.events⟩ := by
  simp [resolveWithin, h]

theorem resolveWithin_record {node : Json} {properties : Fields} {required : List String}
    (h : Schema.form node = .record properties required) (converter : Converter) (levels : Nat)
    (context : Context) (position : Nat) :
    converter.resolveWithin (levels + 1) node context position =
      let inner := converter.resolveRecord (converter.resolveWithin levels) context properties
        required position
      ⟨.record inner.value, inner.drawn, inner.events⟩ := by
  simp [resolveWithin, h]

theorem resolveWithin_alternatives {node : Json} {nodes : List Json}
    (h : Schema.form node = .alternatives nodes) (converter : Converter) (levels : Nat)
    (context : Context) (position : Nat) :
    converter.resolveWithin (levels + 1) node context position =
      let inner := resolveAlternatives (converter.resolveWithin levels) context nodes position
      ⟨Shape.unionOf inner.value, inner.drawn, inner.events⟩ := by
  simp [resolveWithin, h]

theorem convert_apply (converter : Converter) (toolName : String) (schema : Json)
    (position : Nat) :
    converter.convert toolName schema position =
      let inner := converter.buildRecord (Context.ofTool toolName) (Schema.properties schema)
        (Schema.requiredNames (schema.get? "required")) position
      ⟨inner.value, inner.drawn,
        inner.events ++ [.schemaConverted toolName inner.value.name inner.value.fields.length]⟩ := by
  simp [convert]

/-! ## What holds of every part -/

/-- The fields of a record stand in the order of its properties. -/
theorem names_resolveFields (resolution : Resolution) (required : List String)
    (properties : Fields) (position : Nat) :
    (resolveFields resolution required properties position).value.map FieldShape.name =
      properties.keys := by
  induction properties generalizing position with
  | nil => rfl
  | cons p rest ih =>
    obtain ⟨name, schema⟩ := p
    rw [resolveFields_cons]
    simp only [List.map_cons, ih, Fields.keys, List.cons.injEq, and_true]
    unfold field
    split <;> rfl

theorem forall_mem_resolveFields {resolution : Resolution} {motive : Shape → Prop}
    (h : ∀ node context position, motive (resolution node context position).value)
    (required : List String) (properties : Fields) (position : Nat) :
    ∀ f ∈ (resolveFields resolution required properties position).value,
      ∃ name schema shape, motive shape ∧ f = field required name schema shape := by
  induction properties generalizing position with
  | nil => simp
  | cons p rest ih =>
    obtain ⟨name, schema⟩ := p
    rw [resolveFields_cons]
    intro f hf
    rcases List.mem_cons.mp hf with rfl | hrest
    · exact ⟨name, schema, _, h schema (Context.ofField name) position, rfl⟩
    · exact ih _ f hrest

/-- A field is required exactly when its name is listed, and is nullable when it is not. -/
theorem forall_mem_resolveFields_required (resolution : Resolution) (required : List String)
    (properties : Fields) (position : Nat) :
    ∀ f ∈ (resolveFields resolution required properties position).value,
      (f.required = true ↔ f.name ∈ required) ∧
        (f.required = false → ∃ shape : Shape, f.shape = shape.nullable) := by
  intro f hf
  obtain ⟨name, schema, shape, _, rfl⟩ := forall_mem_resolveFields (motive := fun _ => True)
    (fun _ _ _ => trivial) required properties position f hf
  unfold field
  split
  · next hlisted => simpa [FieldShape.mandatory] using hlisted
  · next hlisted => exact ⟨by simpa [FieldShape.optional] using hlisted, fun _ => ⟨shape, rfl⟩⟩

theorem forall_mem_resolveAlternatives {resolution : Resolution} {motive : Shape → Prop}
    (hpinned : motive .string)
    (h : ∀ node context position, motive (resolution node context position).value)
    (context : Context) (nodes : List Json) (position : Nat) :
    ∀ s ∈ (resolveAlternatives resolution context nodes position).value, motive s := by
  induction nodes generalizing position with
  | nil => simp
  | cons node rest ih =>
    rw [resolveAlternatives_cons]
    intro s hs
    rcases List.mem_cons.mp hs with rfl | hrest
    · cases hpin : Schema.isPinned node with
      | true =>
        rw [resolveAlternative_of_isPinned hpin]
        exact hpinned
      | false =>
        rw [resolveAlternative_of_not_isPinned hpin]
        exact h node context position
    · exact ih _ s hrest

end ToolShape.Converter
