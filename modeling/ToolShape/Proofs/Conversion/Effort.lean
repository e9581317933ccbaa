import ToolShape.Proofs.Conversion.Events
import ToolShape.Proofs.Schema.Size
import Mathlib.Data.List.Flatten

/-!
# What a conversion costs

A conversion draws suffixes and gives warnings. Both stay within the size of the schema:

> **The suffixes drawn and the warnings given are together at most as many as the values in the
> schema, and the records of the result at most as many as the suffixes**
> (`Converter.effort_convert_le`).

A record pays for its suffix with the node that it is made of, and a warning is paid for by the node
that is not looked into. So nothing more is to be shown than that no node pays twice, and this is a
fact about forms (`Schema.size_form_le`). As the union rule drops records and adds none, the bound on
the records needs no suffixes that differ, unlike their numbering.
-/

set_option autoImplicit false

namespace ToolShape

open Json (Fields sizeOfItems sizeOfFields)
open Name (Context)

/-! ## Records under the union rule -/

namespace Shape

theorem addMember_sublist (kept : List Shape) (s : Shape) :
    (addMember kept s).Sublist (kept ++ [s]) := by
  unfold addMember
  split
  · exact List.sublist_append_left kept [s]
  · exact List.Sublist.refl _

theorem distinct_sublist (all : List Shape) : (distinct all).Sublist all := by
  induction all using List.reverseRecOn with
  | nil => exact List.Sublist.refl _
  | append_singleton all s ih =>
    rw [distinct_append_singleton]
    exact (addMember_sublist _ s).trans (ih.append_right [s])

/-- The union rule adds no records, whatever their names. -/
theorem records_unionOf_sublist (alternatives : List Shape) :
    (unionOf alternatives).records.Sublist (alternatives.flatMap records) := by
  have hflat : (alternatives.flatMap members).flatMap records = alternatives.flatMap records := by
    rw [List.flatMap_assoc]
    exact List.flatMap_congr fun s _ => flatMap_records_members s
  rw [unionOf, records_ofMembers, ← hflat]
  exact (distinct_sublist _).flatMap records

theorem length_records_nullable_le (s : Shape) :
    s.nullable.records.length ≤ s.records.length := by
  have hsublist := records_unionOf_sublist [s, null]
  simpa [nullable, records] using hsublist.length_le

end Shape

/-! ## Draws and warnings -/

namespace Event

/-- How many of the events are warnings. -/
def warnings (events : List Event) : Nat := events.countP isWarning

@[simp] theorem warnings_nil : warnings [] = 0 := rfl

@[simp] theorem warnings_append (events others : List Event) :
    warnings (events ++ others) = warnings events + warnings others :=
  List.countP_append

end Event

namespace Converter

/-- So many records come from at least as many draws, and draws and warnings stay within a bound. -/
structure Within (records bound drawn : Nat) (events : List Event) : Prop where
  records_le : records ≤ drawn
  effort_le : drawn + Event.warnings events ≤ bound

namespace Within

variable {records bound drawn : Nat} {events : List Event}

theorem nothing : Within 0 0 0 [] := ⟨Nat.le_refl 0, Nat.le_refl 0⟩

theorem append {records' bound' drawn' : Nat} {events' : List Event}
    (h : Within records bound drawn events) (h' : Within records' bound' drawn' events') :
    Within (records + records') (bound + bound') (drawn + drawn') (events ++ events') := by
  refine ⟨Nat.add_le_add h.records_le h'.records_le, ?_⟩
  rw [Event.warnings_append, Nat.add_add_add_comm]
  exact Nat.add_le_add h.effort_le h'.effort_le

theorem mono {records' bound' : Nat} (h : Within records bound drawn events)
    (hrecords : records' ≤ records) (hbound : bound ≤ bound') :
    Within records' bound' drawn events :=
  ⟨Nat.le_trans hrecords h.records_le, Nat.le_trans h.effort_le hbound⟩

end Within

/-- Every node is resolved within its size. -/
def Frugal (resolution : Resolution) : Prop :=
  ∀ node context position,
    Within (resolution node context position).value.records.length node.size
      (resolution node context position).drawn (resolution node context position).events

variable {resolution : Resolution}

theorem length_records_field_le (required : List String) (name : String) (schema : Json)
    (shape : Shape) :
    (field required name schema shape).shape.records.length ≤ shape.records.length := by
  unfold field
  split
  · exact Nat.le_refl _
  · exact Shape.length_records_nullable_le shape

theorem within_resolveFields (h : Frugal resolution) (required : List String)
    (properties : Fields) (position : Nat) :
    Within
      ((resolveFields resolution required properties position).value.flatMap
        (·.shape.records)).length
      (sizeOfFields properties) (resolveFields resolution required properties position).drawn
      (resolveFields resolution required properties position).events := by
  induction properties generalizing position with
  | nil => exact .nothing
  | cons p rest ih =>
    obtain ⟨name, schema⟩ := p
    rw [resolveFields_cons, sizeOfFields]
    dsimp only
    rw [List.flatMap_cons, List.length_append]
    have hfirst := h schema (Context.ofField name) position
    exact (hfirst.mono (length_records_field_le required name schema _) (Nat.le_refl _)).append
      (ih _)

/-- A record draws once more than its fields, and that is the one more that its form allows. -/
theorem within_resolveRecord (h : Frugal resolution) (converter : Converter) (context : Context)
    (properties : Fields) (required : List String) (position : Nat) :
    Within
      (converter.resolveRecord resolution context properties required position).value.records.length
      (sizeOfFields properties + 1)
      (converter.resolveRecord resolution context properties required position).drawn
      (converter.resolveRecord resolution context properties required position).events := by
  have hfields := within_resolveFields h required properties position
  rw [resolveRecord_apply]
  dsimp only
  rw [RecordShape.records, FieldShape.recordsOfAll_eq_flatMap, List.length_append]
  exact hfields.append ⟨Nat.le_refl 1, Nat.le_refl 1⟩

theorem within_resolveAlternative (h : Frugal resolution) (context : Context) (node : Json)
    (position : Nat) :
    Within (resolveAlternative resolution context node position).value.records.length node.size
      (resolveAlternative resolution context node position).drawn
      (resolveAlternative resolution context node position).events := by
  cases hpin : Schema.isPinned node with
  | true =>
    rw [resolveAlternative_of_isPinned hpin]
    exact Within.nothing.mono (Nat.le_refl 0) (Nat.zero_le _)
  | false =>
    rw [resolveAlternative_of_not_isPinned hpin]
    exact h node context position

theorem within_resolveAlternatives (h : Frugal resolution) (context : Context) (nodes : List Json)
    (position : Nat) :
    Within
      ((resolveAlternatives resolution context nodes position).value.flatMap Shape.records).length
      (sizeOfItems nodes) (resolveAlternatives resolution context nodes position).drawn
      (resolveAlternatives resolution context nodes position).events := by
  induction nodes generalizing position with
  | nil => exact .nothing
  | cons node rest ih =>
    rw [resolveAlternatives_cons, sizeOfItems]
    dsimp only
    rw [List.flatMap_cons, List.length_append]
    exact (within_resolveAlternative h context node position).append (ih _)

/-- **Every node is resolved within its size, whatever the limit.** By induction on the levels; the
cases are those of the node's form. -/
theorem frugal_resolveWithin (converter : Converter) (levels : Nat) :
    Frugal (converter.resolveWithin levels) := by
  induction levels with
  | zero =>
    intro node context position
    rw [resolveWithin_zero]
    -- The warning is paid for by the node itself, which is not looked into.
    exact ⟨Nat.le_refl 0, Json.size_pos node⟩
  | succ levels ih =>
    intro node context position
    have hsize := Schema.size_form_le node
    cases hform : Schema.form node with
    | leaf shape =>
      rw [resolveWithin_leaf hform, records_of_form_leaf hform]
      exact Within.nothing.mono (Nat.le_refl 0) (Nat.zero_le _)
    | list items =>
      rw [hform] at hsize
      rw [resolveWithin_list hform]
      dsimp only
      rw [Shape.records_sequence]
      exact (ih items context.item position).mono (Nat.le_refl _) hsize
    | record properties required =>
      rw [hform] at hsize
      rw [resolveWithin_record hform]
      exact (within_resolveRecord ih converter context properties required position).mono
        (Nat.le_refl _) hsize
    | alternatives nodes =>
      rw [hform] at hsize
      rw [resolveWithin_alternatives hform]
      dsimp only
      exact (within_resolveAlternatives ih context nodes position).mono
        (Shape.records_unionOf_sublist _).length_le hsize

/-- **Conversion never multiplies work.** Whatever the schema, the name, the limit and the source of
suffixes: the result has no more records than suffixes were drawn, and these and the warnings are no
more than the schema has values. -/
theorem effort_convert_le (converter : Converter) (toolName : String) (schema : Json)
    (position : Nat) :
    let outcome := converter.convert toolName schema position
    outcome.value.records.length ≤ outcome.drawn ∧
      outcome.drawn + Event.warnings outcome.events ≤ schema.size := by
  have hproperties : sizeOfFields (Schema.override [] (Schema.properties schema)) < schema.size :=
    Nat.lt_of_le_of_lt (Schema.sizeOfFields_override_nil_le _)
      (Schema.sizeOfFields_properties_lt schema)
  have hrecord := within_resolveRecord (frugal_resolveWithin converter converter.maxDepth) converter
    (Context.ofTool toolName) (Schema.override [] (Schema.properties schema))
    (Schema.requiredNames (schema.get? "required")) position
  rw [convert_apply]
  dsimp only
  rw [Event.warnings_append]
  -- The report of the conversion itself is no warning.
  exact ⟨hrecord.records_le, Nat.le_trans hrecord.effort_le hproperties⟩

-- A schema without keywords has one value, and draws for the record of the tool.
example : ((⟨.counting 0, 64⟩ : Converter).convert "ping" .null 0).drawn = Json.null.size := rfl

end Converter

end ToolShape
