import ToolShape.Proofs.Conversion.Steps
import ToolShape.Proofs.Name.Generated
import ToolShape.Proofs.Shape.Union
import ToolShape.Tool.Basic

/-!
# What records are named for

A record is named for the place where it stands: for its tool at the top, for its field inside of a
field, and for the items of these inside of lists. Alternatives stand where their node stands.
`Shape.NamedFor` follows a context down a finished shape, and `Converter.namedFor_resolveWithin`
says that every shape that a node resolves to is named for the node's context.

> **Every record of a tool is named for the tool, for one of its fields, or for items of these**
> (`Tool.Converted.exists_origin`).
-/

set_option autoImplicit false

namespace ToolShape

open Json (Fields)
open Name (Context generated)

/-- The records of a shape are named for a context and for what leads down from it. -/
inductive Shape.NamedFor : Context → Shape → Prop where
  | unknown (context : Context) : NamedFor context .unknown
  | scalar (context : Context) (kind : Scalar) : NamedFor context (.scalar kind)
  | literal (context : Context) (values : List String) : NamedFor context (.literal values)
  | sequence {context : Context} {items : Shape} (inner : NamedFor context.item items) :
    NamedFor context (.sequence items)
  | mapping (context : Context) : NamedFor context .mapping
  | record {context : Context} (suffix : Name.Suffix) {fields : List FieldShape}
    (inner : ∀ f ∈ fields, NamedFor (Context.ofField f.name) f.shape) :
    NamedFor context (.record ⟨generated context suffix, fields⟩)
  | union {context : Context} {members : List Shape} (inner : ∀ s ∈ members, NamedFor context s) :
    NamedFor context (.union members)

namespace Shape

variable {context : Context}

theorem NamedFor.of_mem_members {s t : Shape} (h : s.NamedFor context) (ht : t ∈ s.members) :
    t.NamedFor context := by
  cases h with
  | union inner => exact inner t ht
  | _ =>
    rw [List.mem_singleton.mp ht]
    constructor
    try assumption

/-- The union rule moves no record to another place. -/
theorem namedFor_unionOf {alternatives : List Shape}
    (h : ∀ s ∈ alternatives, s.NamedFor context) : (unionOf alternatives).NamedFor context := by
  have hflat : ∀ t ∈ alternatives.flatMap members, t.NamedFor context := by
    intro t ht
    obtain ⟨s, hs, hmem⟩ := List.mem_flatMap.mp ht
    exact (h s hs).of_mem_members hmem
  apply unionOf_induct alternatives
  · exact .unknown context
  · exact hflat
  · intro ms _ hmem _
    exact .union fun s hs => hflat s (hmem s hs)

end Shape

theorem Schema.Plain.namedFor {s : Shape} (h : Schema.Plain s) (context : Context) :
    s.NamedFor context := by
  induction h with
  | unknown => exact .unknown context
  | scalar kind => exact .scalar context kind
  | literal _ => exact .literal context _
  | untypedSequence => exact .sequence (.unknown _)
  | mapping => exact .mapping context
  | unionOf _ ih => exact Shape.namedFor_unionOf ih

/-! ## The conversion, level by level -/

namespace Converter

/-- Every node resolves to a shape that is named for its context. -/
def NamesFor (resolution : Resolution) : Prop :=
  ∀ node context position, (resolution node context position).value.NamedFor context

variable {resolution : Resolution}

theorem namedFor_field {context : Context} {shape : Shape} (h : shape.NamedFor context)
    (required : List String) (name : String) (schema : Json) :
    (field required name schema shape).shape.NamedFor context := by
  unfold field
  split
  · exact h
  · apply Shape.namedFor_unionOf
    intro s hs
    rcases List.mem_cons.mp hs with rfl | hnull
    · exact h
    · rw [List.mem_singleton.mp hnull]
      exact .scalar context .null

theorem namedFor_resolveFields (h : NamesFor resolution) (required : List String)
    (properties : Fields) (position : Nat) :
    ∀ f ∈ (resolveFields resolution required properties position).value,
      f.shape.NamedFor (Context.ofField f.name) := by
  induction properties generalizing position with
  | nil =>
    intro f hf
    cases hf
  | cons p rest ih =>
    obtain ⟨name, schema⟩ := p
    rw [resolveFields_cons]
    intro f hf
    rcases List.mem_cons.mp hf with rfl | hrest
    · have hname : (field required name schema (resolution schema (Context.ofField name)
          position).value).name = name := by
        unfold field
        split <;> rfl
      rw [hname]
      exact namedFor_field (h schema (Context.ofField name) position) required name schema
    · exact ih _ f hrest

theorem namedFor_resolveRecord (converter : Converter) (h : NamesFor resolution)
    (context : Context) (properties : Fields) (required : List String) (position : Nat) :
    (Shape.record (converter.resolveRecord resolution context properties required
      position).value).NamedFor context := by
  rw [resolveRecord_apply]
  exact .record _ (namedFor_resolveFields h required properties position)

theorem namedFor_resolveAlternatives (h : NamesFor resolution) (context : Context)
    (nodes : List Json) (position : Nat) :
    ∀ s ∈ (resolveAlternatives resolution context nodes position).value, s.NamedFor context := by
  induction nodes generalizing position with
  | nil =>
    intro s hs
    cases hs
  | cons node rest ih =>
    rw [resolveAlternatives_cons]
    intro s hs
    rcases List.mem_cons.mp hs with rfl | hrest
    · cases hpin : Schema.isPinned node with
      | true =>
        rw [resolveAlternative_of_isPinned hpin]
        exact .scalar context .string
      | false =>
        rw [resolveAlternative_of_not_isPinned hpin]
        exact h node context position
    · exact ih _ s hrest

/-- **Every node resolves to a shape that is named for its context.** -/
theorem namesFor_resolveWithin (converter : Converter) (levels : Nat) :
    NamesFor (converter.resolveWithin levels) := by
  induction levels with
  | zero =>
    intro node context position
    rw [resolveWithin_zero]
    exact .unknown context
  | succ levels ih =>
    intro node context position
    cases hform : Schema.form node with
    | leaf shape =>
      rw [resolveWithin_leaf hform]
      exact (Schema.plain_of_form hform).namedFor context
    | list items =>
      rw [resolveWithin_list hform]
      exact .sequence (ih items context.item position)
    | record properties required =>
      rw [resolveWithin_record hform]
      exact namedFor_resolveRecord converter ih context properties required position
    | alternatives nodes =>
      rw [resolveWithin_alternatives hform]
      exact Shape.namedFor_unionOf (namedFor_resolveAlternatives ih context nodes position)

theorem namedFor_convert (converter : Converter) (toolName : String) (schema : Json)
    (position : Nat) :
    (Shape.record (converter.convert toolName schema position).value).NamedFor
      (Context.ofTool toolName) := by
  rw [convert_apply]
  exact namedFor_resolveRecord converter (namesFor_resolveWithin converter converter.maxDepth) _ _ _
    position

end Converter

/-! ## The records of a tool -/

namespace Tool

/-- The tool is the conversion of its definition, with some converter and from some position. -/
def Converted (tool : Tool) : Prop :=
  ∃ converter position, tool = (Tool.convert converter tool.definition position).value

/-- What the records of a tool may be named for. -/
inductive Origin (tool : Tool) : Context → Prop where
  | name : Origin tool (Context.ofTool tool.name)
  | field {r : RecordShape} {f : FieldShape} (hr : r ∈ tool.arguments.records)
    (hf : f ∈ r.fields) : Origin tool (Context.ofField f.name)
  | item {context : Context} (inner : Origin tool context) : Origin tool context.item

theorem origin_of_namedFor {tool : Tool} {context : Context} {s : Shape}
    (h : s.NamedFor context) (horigin : tool.Origin context)
    (hsub : s.records ⊆ tool.arguments.records) :
    ∀ r ∈ s.records, ∃ c suffix, tool.Origin c ∧ r.name = generated c suffix := by
  induction h with
  | sequence inner ih =>
    rw [Shape.records_sequence] at hsub ⊢
    exact ih (.item horigin) hsub
  | record suffix inner ih =>
    rw [Shape.records_record] at hsub ⊢
    have hself := hsub (List.mem_append_right _ (List.mem_singleton_self _))
    intro r hr
    rcases List.mem_append.mp hr with hnested | hlast
    · obtain ⟨f, hf, hmem⟩ := List.mem_flatMap.mp hnested
      apply ih f hf (.field hself hf)
      · intro t ht
        exact hsub (List.mem_append_left _ (List.mem_flatMap.mpr ⟨f, hf, ht⟩))
      · exact hmem
    · rw [List.mem_singleton.mp hlast]
      exact ⟨_, suffix, horigin, rfl⟩
  | union inner ih =>
    rw [Shape.records_union] at hsub ⊢
    intro r hr
    obtain ⟨s, hs, hmem⟩ := List.mem_flatMap.mp hr
    apply ih s hs horigin
    · intro t ht
      exact hsub (List.mem_flatMap.mpr ⟨s, hs, ht⟩)
    · exact hmem
  | _ =>
    intro r hr
    cases hr

/-- **Every record of a converted tool is named** for the tool, a field or items. -/
theorem Converted.exists_origin {tool : Tool} (h : tool.Converted) :
    ∀ r ∈ tool.arguments.records, ∃ c suffix, tool.Origin c ∧ r.name = generated c suffix := by
  obtain ⟨converter, position, heq⟩ := h
  have hnamed : (Shape.record tool.arguments).NamedFor (Context.ofTool tool.name) := by
    rw [heq]
    exact Converter.namedFor_convert converter tool.name tool.definition.schema position
  have hrecords : (Shape.record tool.arguments).records = tool.arguments.records := by
    rw [Shape.records]
  intro r hr
  rw [← hrecords] at hr
  exact origin_of_namedFor hnamed .name (List.Subset.refl _) r hr

end Tool

end ToolShape
