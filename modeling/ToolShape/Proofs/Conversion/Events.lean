import ToolShape.Event
import ToolShape.Proofs.Conversion.Numbering

/-!
# What a conversion reports

> **A conversion reports the records of its result, each once and in order, and between them nothing
> but warnings** (`Converter.tells_resolveWithin`); a tool's conversion then reports itself
> (`Converter.told_convert`).

A record is reported right after its suffix is drawn, so the reports come in the order of the draws.
That this is also the order in which the records stand in the result, and that no record has been
lost, is what the numbering of records rests on too: a union drops no record as long as names are
different.
-/

set_option autoImplicit false

namespace ToolShape

open Json (Fields)
open Name (Context Source)

/-! ## Reports -/

namespace Event

/-- What is reported of a record. -/
def built (r : RecordShape) : Event := .recordBuilt r.name r.fields.length r.requiredFields.length

def isWarning : Event → Bool
  | .depthExceeded .. => true
  | _ => false

/-- Events without the warnings among them. -/
def told (events : List Event) : List Event := events.filter (!·.isWarning)

@[simp] theorem told_nil : told [] = [] := rfl

@[simp] theorem told_append (events others : List Event) :
    told (events ++ others) = told events ++ told others :=
  List.filter_append _ _

end Event

namespace Converter

open Event (built told)

/-- What is reported of a node, apart from warnings, are the records of its shape. -/
def Tells (source : Source) (resolution : Resolution) : Prop :=
  ∀ node context position, source.Fresh position (resolution node context position).drawn →
    told (resolution node context position).events =
      (resolution node context position).value.records.map built

variable {converter : Converter} {source : Source} {resolution : Resolution}

theorem records_field {shape : Shape} (h : shape.recordNames.Nodup) (required : List String)
    (name : String) (schema : Json) :
    (field required name schema shape).shape.records = shape.records := by
  unfold field
  split
  · rfl
  · exact Shape.records_nullable h

theorem told_resolveFields (hnumbers : Numbers source resolution) (htells : Tells source resolution)
    (required : List String) (properties : Fields) (position : Nat)
    (fresh : source.Fresh position (resolveFields resolution required properties position).drawn) :
    told (resolveFields resolution required properties position).events =
      ((resolveFields resolution required properties position).value.flatMap
        (·.shape.records)).map built := by
  induction properties generalizing position with
  | nil => rfl
  | cons p rest ih =>
    obtain ⟨name, schema⟩ := p
    rw [resolveFields_cons] at fresh ⊢
    dsimp only at fresh ⊢
    have hnodup := (hnumbers schema (Context.ofField name) position fresh.left).nodup fresh.left
    rw [Event.told_append, htells schema (Context.ofField name) position fresh.left,
      ih _ fresh.right, List.flatMap_cons, records_field hnodup, List.map_append]

/-- The record comes after those of its fields, in the reports as in the shape. -/
theorem told_resolveRecord (hnumbers : Numbers converter.source resolution)
    (htells : Tells converter.source resolution) (context : Context) (properties : Fields)
    (required : List String) (position : Nat)
    (fresh : converter.source.Fresh position
      (converter.resolveRecord resolution context properties required position).drawn) :
    told (converter.resolveRecord resolution context properties required position).events =
      (Shape.record (converter.resolveRecord resolution context properties required
        position).value).records.map built := by
  rw [resolveRecord_apply] at fresh ⊢
  dsimp only at fresh ⊢
  rw [Event.told_append, told_resolveFields hnumbers htells required properties position fresh.left,
    Shape.records_record, List.map_append]
  rfl

theorem told_resolveAlternatives (htells : Tells source resolution) (context : Context)
    (nodes : List Json) (position : Nat)
    (fresh : source.Fresh position (resolveAlternatives resolution context nodes position).drawn) :
    told (resolveAlternatives resolution context nodes position).events =
      ((resolveAlternatives resolution context nodes position).value.flatMap
        Shape.records).map built := by
  induction nodes generalizing position with
  | nil => rfl
  | cons node rest ih =>
    rw [resolveAlternatives_cons] at fresh ⊢
    dsimp only at fresh ⊢
    have hfirst : told (resolveAlternative resolution context node position).events =
        (resolveAlternative resolution context node position).value.records.map built := by
      have hfresh := fresh.left
      cases hpin : Schema.isPinned node with
      | true =>
        rw [resolveAlternative_of_isPinned hpin]
        rfl
      | false =>
        rw [resolveAlternative_of_not_isPinned hpin] at hfresh ⊢
        exact htells node context position hfresh
    rw [Event.told_append, hfirst, ih _ fresh.right, List.flatMap_cons, List.map_append]

/-- Shapes known at once hold no records. -/
theorem records_of_form_leaf {node : Json} {shape : Shape} (h : Schema.form node = .leaf shape) :
    shape.records = [] :=
  List.map_eq_nil_iff.mp (Schema.plain_of_form h).recordNames_eq_nil

/-- **Every node tells of the records of its shape.** By induction on the levels. -/
theorem tells_resolveWithin (converter : Converter) (levels : Nat) :
    Tells converter.source (converter.resolveWithin levels) := by
  induction levels with
  | zero =>
    intro node context position _
    rw [resolveWithin_zero]
    rfl
  | succ levels ih =>
    intro node context position
    have hnumbers := numbers_resolveWithin converter levels
    cases hform : Schema.form node with
    | leaf shape =>
      rw [resolveWithin_leaf hform, records_of_form_leaf hform]
      exact fun _ => rfl
    | list items =>
      rw [resolveWithin_list hform]
      dsimp only
      rw [Shape.records_sequence]
      exact ih items context.item position
    | record properties required =>
      rw [resolveWithin_record hform]
      exact told_resolveRecord hnumbers ih context properties required position
    | alternatives nodes =>
      rw [resolveWithin_alternatives hform]
      intro fresh
      have hnodup := (numbered_resolveAlternatives hnumbers context nodes position fresh).nodup fresh
      dsimp only
      -- The alternatives repeat no name, so the union drops none of their records.
      rw [Shape.records_unionOf hnodup]
      exact told_resolveAlternatives ih context nodes position fresh

/-- **What a tool's conversion tells.** -/
theorem told_convert (converter : Converter) (toolName : String) (schema : Json) (position : Nat)
    (fresh : converter.source.Fresh position (converter.convert toolName schema position).drawn) :
    let record := (converter.convert toolName schema position).value
    told (converter.convert toolName schema position).events =
      (Shape.record record).records.map built ++
        [.schemaConverted toolName record.name record.fields.length] := by
  rw [convert_apply] at fresh ⊢
  dsimp only at fresh ⊢
  rw [Event.told_append, buildRecord, told_resolveRecord
    (numbers_resolveWithin converter converter.maxDepth)
    (tells_resolveWithin converter converter.maxDepth) _ _ _ _ fresh]
  rfl

end Converter

end ToolShape
