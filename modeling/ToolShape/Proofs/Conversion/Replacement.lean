import ToolShape.Proofs.Conversion.Independence
import ToolShape.Proofs.Name.Replacement

/-!
# Conversions up to their suffixes

> **Converting with other suffixes gives the same record with other suffixes**: with each replaced
> by the one that the same draw gives there (`Converter.rename_convert_eq`).

That two conversions are one tree up to suffixes is known already, and so is which suffixes stand in
each and in which order. Together these settle every name, since a name is its context and its
suffix, and a shape is settled by its names and by what it is without them
(`Shape.eq_of_rename_eq`).
-/

set_option autoImplicit false

namespace ToolShape

open Name (Context Source Suffix Numbered resuffix unnumbered generated)

/-! ## A shape from its names and the rest -/

/-- Lists of parts with one image each and the same names, all names in a row, are equal if single
parts are. -/
theorem eq_of_map_eq_of_flatMap_eq {α β γ : Type} {image : α → β} {names : α → List γ}
    (hlength : ∀ {x y}, image x = image y → (names x).length = (names y).length) {xs ys : List α}
    (h : ∀ x ∈ xs, ∀ y, image x = image y → names x = names y → x = y)
    (himage : xs.map image = ys.map image) (hnames : xs.flatMap names = ys.flatMap names) :
    xs = ys := by
  induction xs generalizing ys with
  | nil => exact (List.map_eq_nil_iff.mp himage.symm).symm
  | cons x xs ih =>
    cases ys with
    | nil => cases himage
    | cons y ys =>
      rw [List.map_cons, List.map_cons, List.cons_eq_cons] at himage
      obtain ⟨hfirst, hrest⟩ := himage
      rw [List.flatMap_cons, List.flatMap_cons] at hnames
      obtain ⟨hhead, htail⟩ := List.append_inj hnames (hlength hfirst)
      have hxy : x = y := h x List.mem_cons_self y hfirst hhead
      rw [hxy, ih (fun z hz => h z (List.mem_cons_of_mem x hz)) hrest htail]

namespace Shape

variable {f g : String → String}

theorem rename_rename (s : Shape) : (s.rename f).rename g = s.rename (g ∘ f) := by
  induction s with
  | sequence items ih => rw [rename_sequence, rename_sequence, rename_sequence, ih]
  | record name fields ih =>
    rw [rename_record, rename_record, rename_record, List.map_map]
    have hfields : fields.map (FieldShape.rename g ∘ FieldShape.rename f) =
        fields.map (FieldShape.rename (g ∘ f)) := by
      apply List.map_congr_left
      intro field hfield
      obtain ⟨fieldName, shape, required, description⟩ := field
      exact congrArg (FieldShape.mk fieldName · required description) (ih _ hfield)
    rw [hfields]
    rfl
  | union members ih =>
    rw [rename_union, rename_union, rename_union, List.map_map]
    exact congrArg union (List.map_congr_left ih)
  | _ => rfl

theorem length_recordNames_eq {a b : Shape} (h : a.rename f = b.rename f) :
    a.recordNames.length = b.recordNames.length := by
  rw [← List.length_map (f := f), ← recordNames_rename, h, recordNames_rename, List.length_map]

theorem length_fieldNames_eq {a b : FieldShape} (h : a.rename f = b.rename f) :
    a.shape.recordNames.length = b.shape.recordNames.length := by
  apply length_recordNames_eq (f := f)
  rw [← FieldShape.shape_rename, ← FieldShape.shape_rename, h]

/-- **A shape is settled by its names and its image under a renaming.** -/
theorem eq_of_rename_eq {a b : Shape} (himage : a.rename f = b.rename f)
    (hnames : a.recordNames = b.recordNames) : a = b := by
  induction a generalizing b with
  | sequence items ih =>
    cases b with
    | sequence others =>
      rw [rename_sequence, rename_sequence, sequence.injEq] at himage
      rw [recordNames_sequence, recordNames_sequence] at hnames
      rw [ih himage hnames]
    | record r =>
      obtain ⟨name, fields⟩ := r
      simp at himage
    | _ => simp at himage
  | record name fields ih =>
    cases b with
    | record r =>
      obtain ⟨other, others⟩ := r
      rw [rename_record, rename_record, record.injEq, RecordShape.mk.injEq] at himage
      rw [recordNames_record, recordNames_record] at hnames
      obtain ⟨hfields, hname⟩ := List.append_inj' hnames rfl
      rw [List.singleton_inj.mp hname]
      have heq : fields = others := by
        apply eq_of_map_eq_of_flatMap_eq length_fieldNames_eq ?_ himage.2 hfields
        intro x hx y hxy hnames
        obtain ⟨fieldName, shape, required, description⟩ := x
        obtain ⟨fieldName', shape', required', description'⟩ := y
        rw [FieldShape.rename, FieldShape.rename, FieldShape.mk.injEq] at hxy
        obtain ⟨rfl, hshape, rfl, rfl⟩ := hxy
        exact congrArg (FieldShape.mk fieldName · required description) (ih _ hx hshape hnames)
      rw [heq]
    | _ => simp at himage
  | union members ih =>
    cases b with
    | union others =>
      rw [rename_union, rename_union, union.injEq] at himage
      rw [recordNames_union, recordNames_union] at hnames
      rw [eq_of_map_eq_of_flatMap_eq length_recordNames_eq (fun x hx y => ih x hx) himage hnames]
    | record r =>
      obtain ⟨name, fields⟩ := r
      simp at himage
    | _ => simp at himage
  | _ =>
    -- Without records on the left there are none on the right, and both are their own images.
    rwa [rename_eq_self rfl, rename_eq_self hnames.symm] at himage

end Shape

/-! ## Names with their suffixes replaced -/

namespace Name

variable {ρ : Suffix → Suffix}

/-- What is left of a name without its suffix does not change when that is replaced. -/
theorem unnumbered_comp_resuffix (ρ : Suffix → Suffix) : unnumbered ∘ resuffix ρ = unnumbered := by
  funext name
  rw [Function.comp_apply, resuffix]
  cases hparse : parse? name with
  | none => rfl
  | some parts =>
    obtain ⟨context, suffix⟩ := parts
    dsimp only
    rw [eq_generated_of_parse? hparse, unnumbered_generated, unnumbered_generated]

theorem resuffix_eq_of_unnumbered_eq {a b : String} {s t : Suffix} (ha : suffix? a = some s)
    (hb : suffix? b = some t) (h : unnumbered a = unnumbered b) (hρ : ρ s = t) :
    resuffix ρ a = b := by
  obtain ⟨c, rfl⟩ := exists_eq_generated_of_suffix? ha
  obtain ⟨d, rfl⟩ := exists_eq_generated_of_suffix? hb
  have hcontext := congrArg context? h
  rw [context?_unnumbered, context?_unnumbered, context?_generated, context?_generated,
    Option.some.injEq] at hcontext
  rw [resuffix_generated, hρ, hcontext]

/-- Names numbered from two sources, with one image each without their suffixes. -/
theorem Numbered.map_resuffix_eq {σ τ : Source} {p q count : Nat} {as bs : List String}
    (ha : Numbered σ p count as) (hb : Numbered τ q count bs)
    (h : as.map unnumbered = bs.map unnumbered)
    (hρ : ∀ k < count, ρ (σ (p + k)) = τ (q + k)) : as.map (resuffix ρ) = bs := by
  apply List.ext_getElem
  · rw [List.length_map, ha.length_eq, hb.length_eq]
  · intro i hi hi'
    rw [List.length_map] at hi
    rw [List.getElem_map]
    apply resuffix_eq_of_unnumbered_eq (ha.suffix?_getElem i hi) (hb.suffix?_getElem i hi')
    · have hget := congrArg (·[i]?) h
      simpa [hi, hi'] using hget
    · exact hρ i (ha.length_eq ▸ hi)

end Name

/-! ## Two conversions -/

namespace Converter

variable {ρ : Suffix → Suffix}

/-- The number of draws is a matter of the schema and the limit alone. -/
theorem drawn_convert_eq (limit : Nat) (σ τ : Source) (toolName : String) (schema : Json)
    (p q : Nat) :
    ((⟨σ, limit⟩ : Converter).convert toolName schema p).drawn =
      ((⟨τ, limit⟩ : Converter).convert toolName schema q).drawn := by
  rw [convert_apply, convert_apply]
  exact (agree_resolveRecord Name.forgets_all (numbers_resolveWithin ⟨σ, limit⟩ limit)
    (numbers_resolveWithin ⟨τ, limit⟩ limit)
    (agree_resolveWithin Name.forgets_all ⟨σ, limit⟩ ⟨τ, limit⟩ limit) _ _ _ _ p q).1

/-- Without their suffixes, the records are one. -/
theorem rename_unnumbered_convert_eq (limit : Nat) {σ τ : Source} {toolName : String}
    {schema : Json} {p q : Nat}
    (hσ : σ.Fresh p ((⟨σ, limit⟩ : Converter).convert toolName schema p).drawn)
    (hτ : τ.Fresh q ((⟨τ, limit⟩ : Converter).convert toolName schema q).drawn) :
    (Shape.record ((⟨σ, limit⟩ : Converter).convert toolName schema p).value).rename unnumbered =
      (Shape.record ((⟨τ, limit⟩ : Converter).convert toolName schema q).value).rename
        unnumbered := by
  rw [convert_apply] at hσ hτ ⊢
  rw [convert_apply]
  exact ((agree_resolveRecord Name.forgets_unnumbered (numbers_resolveWithin ⟨σ, limit⟩ limit)
    (numbers_resolveWithin ⟨τ, limit⟩ limit)
    (agree_resolveWithin Name.forgets_unnumbered ⟨σ, limit⟩ ⟨τ, limit⟩ limit) _ _ _ _ p q).2
      hσ hτ).2 rfl

/-- **Other suffixes give the same record with other suffixes.** -/
theorem rename_convert_eq (limit : Nat) {σ τ : Source} {toolName : String} {schema : Json}
    {p q : Nat}
    (hσ : σ.Fresh p ((⟨σ, limit⟩ : Converter).convert toolName schema p).drawn)
    (hτ : τ.Fresh q ((⟨τ, limit⟩ : Converter).convert toolName schema q).drawn)
    (hρ : ∀ k < ((⟨σ, limit⟩ : Converter).convert toolName schema p).drawn,
      ρ (σ (p + k)) = τ (q + k)) :
    ((⟨σ, limit⟩ : Converter).convert toolName schema p).value.rename (resuffix ρ) =
      ((⟨τ, limit⟩ : Converter).convert toolName schema q).value := by
  have hdrawn := drawn_convert_eq limit σ τ toolName schema p q
  have ha := numbered_convert ⟨σ, limit⟩ toolName schema p hσ
  have hb := numbered_convert ⟨τ, limit⟩ toolName schema q hτ
  have himage := rename_unnumbered_convert_eq limit hσ hτ
  have hnames := congrArg Shape.recordNames himage
  rw [Shape.recordNames_rename, Shape.recordNames_rename] at hnames
  rw [← hdrawn] at hb
  have heq : (Shape.record ((⟨σ, limit⟩ : Converter).convert toolName schema p).value).rename
      (resuffix ρ) =
      Shape.record ((⟨τ, limit⟩ : Converter).convert toolName schema q).value := by
    apply Shape.eq_of_rename_eq (f := unnumbered)
    · rw [Shape.rename_rename, Name.unnumbered_comp_resuffix]
      exact himage
    · rw [Shape.recordNames_rename]
      exact ha.map_resuffix_eq hb hnames hρ
  exact Shape.record.inj heq

end Converter

end ToolShape
