import ToolShape.Proofs.Conversion.Steps
import ToolShape.Proofs.Name.Generated

/-!
# The numbering of records

> **The records of a result carry the suffixes that the conversion drew: all of them, each once, and
> in the order of the draws** (`Converter.numbers_resolveWithin`).

The draws follow the conversion, fields before their record; the records are listed by a walk over
the finished shape. That the two orders agree is the induction below. Between them stands the union
rule, which drops members. It drops none with a record of its own while names are pairwise
different, and names are different because the suffixes of the draws so far are. So freshness of the
source is used at every union, and not only at the end.
-/

set_option autoImplicit false

namespace ToolShape

open Json (Fields)
open Name (Context Source)

/-! ## Lists of names -/

namespace Name

/-- Names carry, one by one, the suffixes drawn from a position on. -/
def Numbered (source : Source) (position count : Nat) (names : List String) : Prop :=
  names.map suffix? = (List.range' position count).map fun i => some (source i)

variable {source : Source} {position : Nat}

theorem numbered_nil : Numbered source position 0 [] := rfl

theorem numbered_generated (context : Context) :
    Numbered source position 1 [generated context (source position)] := by
  simp [Numbered]

theorem Numbered.append {a b : Nat} {names others : List String}
    (h : Numbered source position a names) (h' : Numbered source (position + a) b others) :
    Numbered source position (a + b) (names ++ others) := by
  unfold Numbered at h h' ⊢
  have hrange : List.range' position (a + b) =
      List.range' position a ++ List.range' (position + a) b := by
    have happend := @List.range'_append position a b 1
    rw [Nat.one_mul] at happend
    exact happend.symm
  rw [List.map_append, h, h', hrange, List.map_append]

theorem Numbered.length_eq {count : Nat} {names : List String}
    (h : Numbered source position count names) : names.length = count := by
  have hlength := congrArg List.length h
  simpa using hlength

theorem Numbered.suffix?_getElem {count : Nat} {names : List String}
    (h : Numbered source position count names) (i : Nat) (hi : i < names.length) :
    suffix? names[i] = some (source (position + i)) := by
  have hget : (names.map suffix?)[i]? =
      ((List.range' position count).map fun i => some (source i))[i]? := congrArg (·[i]?) h
  have hcount : i < count := h.length_eq ▸ hi
  simpa [hi, hcount] using hget

/-- Different suffixes make different names. -/
theorem Numbered.nodup {count : Nat} {names : List String}
    (h : Numbered source position count names) (fresh : source.Fresh position count) :
    names.Nodup := by
  have hmap : (names.map suffix?).Nodup := by
    rw [show names.map suffix? = _ from h, ← Function.comp_def, ← List.map_map]
    exact List.Nodup.map (fun _ _ e => Option.some.inj e) fresh
  exact hmap.of_map

end Name

/-! ## Shapes that keep their records -/

namespace Shape

theorem recordNames_unionOf {alternatives : List Shape}
    (h : (alternatives.flatMap recordNames).Nodup) :
    (unionOf alternatives).recordNames = alternatives.flatMap recordNames := by
  rw [recordNames, records_unionOf h, List.map_flatMap]
  rfl

theorem recordNames_nullable {s : Shape} (h : s.recordNames.Nodup) :
    s.nullable.recordNames = s.recordNames := by
  rw [recordNames, records_nullable h, recordNames]

end Shape

/-- Shapes known at once hold no records. -/
theorem Schema.Plain.recordNames_eq_nil {s : Shape} (h : Schema.Plain s) : s.recordNames = [] := by
  induction h with
  | unionOf _ ih =>
    have hnil : ∀ {alternatives : List Shape}, (∀ s ∈ alternatives, s.recordNames = []) →
        alternatives.flatMap Shape.recordNames = [] := List.flatMap_eq_nil_iff.mpr
    rw [Shape.recordNames_unionOf (by simp [hnil ih]), hnil ih]
  | _ => rfl

/-! ## The conversion, level by level -/

namespace Converter

open Name (Numbered)

/-- Every node resolves to a shape whose records carry the suffixes drawn for it. -/
def Numbers (source : Source) (resolution : Resolution) : Prop :=
  ∀ node context position, source.Fresh position (resolution node context position).drawn →
    Numbered source position (resolution node context position).drawn
      (resolution node context position).value.recordNames

variable {converter : Converter} {source : Source} {resolution : Resolution}

theorem recordNames_field {shape : Shape} (h : shape.recordNames.Nodup) (required : List String)
    (name : String) (schema : Json) :
    (field required name schema shape).shape.recordNames = shape.recordNames := by
  unfold field
  split
  · rfl
  · exact Shape.recordNames_nullable h

theorem numbered_resolveFields (h : Numbers source resolution) (required : List String)
    (properties : Fields) (position : Nat)
    (fresh : source.Fresh position (resolveFields resolution required properties position).drawn) :
    Numbered source position (resolveFields resolution required properties position).drawn
      ((resolveFields resolution required properties position).value.flatMap
        (·.shape.recordNames)) := by
  induction properties generalizing position with
  | nil => exact Name.numbered_nil
  | cons p rest ih =>
    obtain ⟨name, schema⟩ := p
    rw [resolveFields_cons] at fresh ⊢
    dsimp only at fresh ⊢
    have hfirst := h schema (Context.ofField name) position fresh.left
    -- An optional field wraps its shape in a union with `null`, which keeps the names.
    rw [List.flatMap_cons, recordNames_field (hfirst.nodup fresh.left)]
    exact hfirst.append (ih _ fresh.right)

theorem numbered_resolveRecord (h : Numbers converter.source resolution) (context : Context)
    (properties : Fields) (required : List String) (position : Nat)
    (fresh : converter.source.Fresh position
      (converter.resolveRecord resolution context properties required position).drawn) :
    Numbered converter.source position
      (converter.resolveRecord resolution context properties required position).drawn
      (Shape.record
        (converter.resolveRecord resolution context properties required position).value).recordNames := by
  rw [resolveRecord_apply] at fresh ⊢
  dsimp only at fresh ⊢
  rw [Shape.recordNames_record]
  -- The record's own draw comes after those of its fields, and so does its name.
  exact (numbered_resolveFields h required properties position fresh.left).append
    (Name.numbered_generated context)

theorem numbered_resolveAlternative (h : Numbers source resolution) (context : Context)
    (node : Json) (position : Nat)
    (fresh : source.Fresh position (resolveAlternative resolution context node position).drawn) :
    Numbered source position (resolveAlternative resolution context node position).drawn
      (resolveAlternative resolution context node position).value.recordNames := by
  cases hpin : Schema.isPinned node with
  | true =>
    rw [resolveAlternative_of_isPinned hpin]
    exact Name.numbered_nil
  | false =>
    rw [resolveAlternative_of_not_isPinned hpin] at fresh ⊢
    exact h node context position fresh

theorem numbered_resolveAlternatives (h : Numbers source resolution) (context : Context)
    (nodes : List Json) (position : Nat)
    (fresh : source.Fresh position (resolveAlternatives resolution context nodes position).drawn) :
    Numbered source position (resolveAlternatives resolution context nodes position).drawn
      ((resolveAlternatives resolution context nodes position).value.flatMap Shape.recordNames) := by
  induction nodes generalizing position with
  | nil => exact Name.numbered_nil
  | cons node rest ih =>
    rw [resolveAlternatives_cons] at fresh ⊢
    dsimp only at fresh ⊢
    rw [List.flatMap_cons]
    exact (numbered_resolveAlternative h context node position fresh.left).append
      (ih _ fresh.right)

/-- **Every node is numbered by its draws.** By induction on the levels. -/
theorem numbers_resolveWithin (converter : Converter) (levels : Nat) :
    Numbers converter.source (converter.resolveWithin levels) := by
  induction levels with
  | zero =>
    intro node context position _
    rw [resolveWithin_zero]
    exact Name.numbered_nil
  | succ levels ih =>
    intro node context position
    cases hform : Schema.form node with
    | leaf shape =>
      rw [resolveWithin_leaf hform]
      intro _
      dsimp only
      rw [(Schema.plain_of_form hform).recordNames_eq_nil]
      exact Name.numbered_nil
    | list items =>
      rw [resolveWithin_list hform]
      dsimp only
      rw [Shape.recordNames_sequence]
      exact ih items context.item position
    | record properties required =>
      rw [resolveWithin_record hform]
      exact numbered_resolveRecord ih context properties required position
    | alternatives nodes =>
      rw [resolveWithin_alternatives hform]
      intro fresh
      have hnames := numbered_resolveAlternatives ih context nodes position fresh
      -- The alternatives repeat no name, so the union drops none of their records.
      dsimp only
      rw [Shape.recordNames_unionOf (hnames.nodup fresh)]
      exact hnames

theorem numbered_resolve (converter : Converter) (node : Json) (context : Context)
    (position : Nat)
    (fresh : converter.source.Fresh position (converter.resolve node context position).drawn) :
    Numbered converter.source position (converter.resolve node context position).drawn
      (converter.resolve node context position).value.recordNames :=
  numbers_resolveWithin converter converter.maxDepth node context position fresh

theorem numbered_buildRecord (converter : Converter) (context : Context) (properties : Fields)
    (required : List String) (position : Nat)
    (fresh : converter.source.Fresh position
      (converter.buildRecord context properties required position).drawn) :
    Numbered converter.source position
      (converter.buildRecord context properties required position).drawn
      (Shape.record
        (converter.buildRecord context properties required position).value).recordNames :=
  numbered_resolveRecord (numbers_resolveWithin converter converter.maxDepth) context _ required
    position fresh

theorem numbered_convert (converter : Converter) (toolName : String) (schema : Json)
    (position : Nat)
    (fresh : converter.source.Fresh position
      (converter.convert toolName schema position).drawn) :
    Numbered converter.source position (converter.convert toolName schema position).drawn
      (Shape.record (converter.convert toolName schema position).value).recordNames := by
  rw [convert_apply] at fresh ⊢
  exact numbered_buildRecord converter _ _ _ position fresh

end Converter

end ToolShape
