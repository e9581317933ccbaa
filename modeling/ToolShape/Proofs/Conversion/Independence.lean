import ToolShape.Proofs.Conversion.Meaning
import ToolShape.Proofs.Conversion.Numbering
import ToolShape.Proofs.Shape.Renaming

/-!
# What a conversion does not depend on

> **Neither the suffixes drawn nor the name of the tool has any part in the shape.** Two conversions
> of one schema draw equally often and give one tree, names aside; so they accept the same values,
> and find issues at the same places (`Converter.results_independent`).

The induction runs two conversions side by side and asks only that the renaming forgets what they may
differ in (`Name.Forgets`). Two such renamings are of use. One forgets whole names, and then any two
contexts will do; the other forgets the suffix alone, and shows that below the record of the tool
the contexts are the same too.

Without a source that repeats nothing the trees may differ, since records that share a name by
accident can be dropped. Acceptance does not: it was never a matter of names
(`Converter.means_resolveWithin`).
-/

set_option autoImplicit false

namespace ToolShape

open Json (Fields)
open Name (Context Source Suffix)

/-! ## Renamings that forget suffixes -/

namespace Name

/-- A renaming forgets suffixes, and of contexts all that two related ones differ in. -/
structure Forgets (f : String → String) (related : Context → Context → Prop) : Prop where
  generated_eq : ∀ {c d : Context}, related c d → ∀ s t : Suffix, f (generated c s) = f (generated d t)
  refl : ∀ c, related c c
  item : ∀ {c d : Context}, related c d → related c.item d.item

theorem forgets_all : Forgets (fun _ => "") fun _ _ => True :=
  ⟨fun _ _ _ => rfl, fun _ => trivial, fun _ => trivial⟩

/-- A generated name with its suffix set to zero; any other name as it is. -/
def unnumbered (name : String) : String :=
  match parse? name with
  | some (context, _) => generated context (.ofCounter 0)
  | none => name

theorem unnumbered_generated (context : Context) (suffix : Suffix) :
    unnumbered (generated context suffix) = generated context (.ofCounter 0) := by
  rw [unnumbered, parse?_generated]

theorem context?_unnumbered (name : String) : context? (unnumbered name) = context? name := by
  unfold unnumbered
  cases hparse : parse? name with
  | none => rfl
  | some parts =>
    obtain ⟨context, suffix⟩ := parts
    rw [context?_generated, context?, hparse]
    rfl

theorem forgets_unnumbered : Forgets unnumbered Eq := by
  refine ⟨?_, fun _ => rfl, fun h => h ▸ rfl⟩
  rintro c _ rfl s t
  rw [unnumbered_generated, unnumbered_generated]

end Name

open Name (Forgets)

/-! ## Two conversions side by side -/

namespace Converter

/-- Two ways to resolve draw equally often, and give shapes with one image if no suffix is
repeated. -/
def Agree (f : String → String) (related : Context → Context → Prop) (σ τ : Source)
    (first second : Resolution) : Prop :=
  ∀ node {c d}, related c d → ∀ p q,
    (first node c p).drawn = (second node d q).drawn ∧
    (σ.Fresh p (first node c p).drawn → τ.Fresh q (second node d q).drawn →
      (first node c p).value.rename f = (second node d q).value.rename f)

variable {f : String → String} {related : Context → Context → Prop} {σ τ : Source}
  {first second : Resolution}

theorem rename_field_eq {s t : Shape} (hs : s.recordNames.Nodup) (ht : t.recordNames.Nodup)
    (h : s.rename f = t.rename f) (required : List String) (name : String) (schema : Json) :
    (field required name schema s).rename f = (field required name schema t).rename f := by
  unfold field
  split
  · rw [FieldShape.mandatory, FieldShape.mandatory, FieldShape.rename, FieldShape.rename, h]
  · rw [FieldShape.optional, FieldShape.optional, FieldShape.rename, FieldShape.rename,
      Shape.rename_nullable_eq hs ht h]

theorem agree_resolveFields (hforgets : Forgets f related) (hfirst : Numbers σ first)
    (hsecond : Numbers τ second) (hagree : Agree f related σ τ first second)
    (required : List String) (properties : Fields) (p q : Nat) :
    (resolveFields first required properties p).drawn =
      (resolveFields second required properties q).drawn ∧
    (σ.Fresh p (resolveFields first required properties p).drawn →
      τ.Fresh q (resolveFields second required properties q).drawn →
      (resolveFields first required properties p).value.map (FieldShape.rename f) =
        (resolveFields second required properties q).value.map (FieldShape.rename f)) := by
  induction properties generalizing p q with
  | nil => exact ⟨rfl, fun _ _ => rfl⟩
  | cons property rest ih =>
    obtain ⟨name, schema⟩ := property
    -- The context of a field is the same on both sides, whatever stood above.
    obtain ⟨hdrawn, hvalue⟩ := hagree schema (hforgets.refl (Context.ofField name)) p q
    rw [resolveFields_cons, resolveFields_cons]
    dsimp only
    obtain ⟨hdrawns, hvalues⟩ := ih (p + (first schema (Context.ofField name) p).drawn)
      (q + (second schema (Context.ofField name) q).drawn)
    refine ⟨by rw [hdrawns, hdrawn], fun hp hq => ?_⟩
    have hs := (hfirst schema _ p hp.left).nodup hp.left
    have ht := (hsecond schema _ q hq.left).nodup hq.left
    rw [List.map_cons, List.map_cons, hvalues hp.right hq.right,
      rename_field_eq hs ht (hvalue hp.left hq.left)]

theorem agree_resolveAlternative (hagree : Agree f related σ τ first second) {c d : Context}
    (hcd : related c d) (node : Json) (p q : Nat) :
    (resolveAlternative first c node p).drawn = (resolveAlternative second d node q).drawn ∧
    (σ.Fresh p (resolveAlternative first c node p).drawn →
      τ.Fresh q (resolveAlternative second d node q).drawn →
      (resolveAlternative first c node p).value.rename f =
        (resolveAlternative second d node q).value.rename f) := by
  cases hpin : Schema.isPinned node with
  | true =>
    rw [resolveAlternative_of_isPinned hpin, resolveAlternative_of_isPinned hpin]
    exact ⟨rfl, fun _ _ => rfl⟩
  | false =>
    rw [resolveAlternative_of_not_isPinned hpin, resolveAlternative_of_not_isPinned hpin]
    exact hagree node hcd p q

theorem agree_resolveAlternatives (hagree : Agree f related σ τ first second) {c d : Context}
    (hcd : related c d) (nodes : List Json) (p q : Nat) :
    (resolveAlternatives first c nodes p).drawn = (resolveAlternatives second d nodes q).drawn ∧
    (σ.Fresh p (resolveAlternatives first c nodes p).drawn →
      τ.Fresh q (resolveAlternatives second d nodes q).drawn →
      (resolveAlternatives first c nodes p).value.map (Shape.rename f) =
        (resolveAlternatives second d nodes q).value.map (Shape.rename f)) := by
  induction nodes generalizing p q with
  | nil => exact ⟨rfl, fun _ _ => rfl⟩
  | cons node rest ih =>
    obtain ⟨hdrawn, hvalue⟩ := agree_resolveAlternative hagree hcd node p q
    rw [resolveAlternatives_cons, resolveAlternatives_cons]
    dsimp only
    obtain ⟨hdrawns, hvalues⟩ := ih (p + (resolveAlternative first c node p).drawn)
      (q + (resolveAlternative second d node q).drawn)
    refine ⟨by rw [hdrawns, hdrawn], fun hp hq => ?_⟩
    rw [List.map_cons, List.map_cons, hvalue hp.left hq.left, hvalues hp.right hq.right]

/-- The fields of two records agree, and so do the records if their contexts are related. -/
theorem agree_resolveRecord (hforgets : Forgets f related) {A B : Converter}
    (hfirst : Numbers A.source first) (hsecond : Numbers B.source second)
    (hagree : Agree f related A.source B.source first second) (c d : Context)
    (properties : Fields) (required : List String) (p q : Nat) :
    (A.resolveRecord first c properties required p).drawn =
      (B.resolveRecord second d properties required q).drawn ∧
    (A.source.Fresh p (A.resolveRecord first c properties required p).drawn →
      B.source.Fresh q (B.resolveRecord second d properties required q).drawn →
      (A.resolveRecord first c properties required p).value.fields.map (FieldShape.rename f) =
        (B.resolveRecord second d properties required q).value.fields.map (FieldShape.rename f) ∧
      (related c d → (Shape.record (A.resolveRecord first c properties required p).value).rename f =
        (Shape.record (B.resolveRecord second d properties required q).value).rename f)) := by
  obtain ⟨hdrawn, hvalue⟩ :=
    agree_resolveFields hforgets hfirst hsecond hagree required properties p q
  rw [resolveRecord_apply, resolveRecord_apply]
  dsimp only
  refine ⟨by rw [hdrawn], fun hp hq => ?_⟩
  have hfields := hvalue hp.left hq.left
  refine ⟨hfields, fun hcd => ?_⟩
  rw [Shape.rename_record, Shape.rename_record, hfields, hforgets.generated_eq hcd]

/-- **Two converters agree on every node**, at one level each. By induction on the levels. -/
theorem agree_resolveWithin (hforgets : Forgets f related) (A B : Converter) (levels : Nat) :
    Agree f related A.source B.source (A.resolveWithin levels) (B.resolveWithin levels) := by
  induction levels with
  | zero =>
    intro node c d _ p q
    rw [resolveWithin_zero, resolveWithin_zero]
    exact ⟨rfl, fun _ _ => rfl⟩
  | succ levels ih =>
    intro node c d hcd p q
    have hfirst := numbers_resolveWithin A levels
    have hsecond := numbers_resolveWithin B levels
    cases hform : Schema.form node with
    | leaf shape =>
      rw [resolveWithin_leaf hform, resolveWithin_leaf hform]
      exact ⟨rfl, fun _ _ => rfl⟩
    | list items =>
      rw [resolveWithin_list hform, resolveWithin_list hform]
      dsimp only
      obtain ⟨hdrawn, hvalue⟩ := ih items (hforgets.item hcd) p q
      refine ⟨hdrawn, fun hp hq => ?_⟩
      rw [Shape.rename_sequence, Shape.rename_sequence, hvalue hp hq]
    | record properties required =>
      rw [resolveWithin_record hform, resolveWithin_record hform]
      obtain ⟨hdrawn, hvalue⟩ :=
        agree_resolveRecord hforgets hfirst hsecond ih c d properties required p q
      exact ⟨hdrawn, fun hp hq => (hvalue hp hq).2 hcd⟩
    | alternatives nodes =>
      rw [resolveWithin_alternatives hform, resolveWithin_alternatives hform]
      dsimp only
      obtain ⟨hdrawn, hvalue⟩ := agree_resolveAlternatives ih hcd nodes p q
      refine ⟨hdrawn, fun hp hq => ?_⟩
      have hs := (numbered_resolveAlternatives hfirst c nodes p hp).nodup hp
      have ht := (numbered_resolveAlternatives hsecond d nodes q hq).nodup hq
      exact Shape.rename_unionOf_eq hs ht (hvalue hp hq)

end Converter

/-! ## What the two results share -/

/-- Two shapes accept the same values; and if a condition holds, they are one tree, names aside, and
find issues at the same places. -/
structure Shape.AlikeWhen (condition : Prop) (a b : Shape) : Prop where
  accept_same : ∀ v, a.issues v = [] ↔ b.issues v = []
  nameless_eq : condition → a.nameless = b.nameless
  places_eq : condition → ∀ v, a.places v = b.places v

theorem Shape.places_eq_of_rename_eq {f : String → String} {a b : Shape}
    (h : a.rename f = b.rename f) (v : Json) : a.places v = b.places v := by
  rw [← Shape.places_rename (f := f) a, h, Shape.places_rename]

/-- The records in a record, besides itself. -/
def RecordShape.nested (r : RecordShape) : List RecordShape := r.fields.flatMap (·.shape.records)

/-- The contexts of the records in a record, nested ones first. -/
def RecordShape.nestedContexts (r : RecordShape) : List (Option Context) :=
  r.nested.map (Name.context? ·.name)

theorem RecordShape.nestedContexts_eq {a b : RecordShape}
    (h : a.fields.map (FieldShape.rename Name.unnumbered) =
      b.fields.map (FieldShape.rename Name.unnumbered)) :
    a.nestedContexts = b.nestedContexts := by
  have hcontexts : ∀ r : RecordShape, r.nestedContexts =
      ((r.fields.map (FieldShape.rename Name.unnumbered)).flatMap
        (·.shape.recordNames)).map Name.context? := by
    intro r
    unfold RecordShape.nestedContexts RecordShape.nested
    rw [List.flatMap_map, List.map_flatMap, List.map_flatMap]
    refine List.flatMap_congr fun field _ => ?_
    rw [FieldShape.shape_rename, Shape.recordNames_rename, Shape.recordNames, List.map_map,
      List.map_map]
    exact List.map_congr_left fun record _ => (Name.context?_unnumbered record.name).symm
  rw [hcontexts, hcontexts, h]

namespace Converter

variable {σ τ : Source}

theorem buildRecord_alike (limit p q : Nat) (c d : Context) (properties : Fields)
    (required : List String) :
    let a := (⟨σ, limit⟩ : Converter).buildRecord c properties required p
    let b := (⟨τ, limit⟩ : Converter).buildRecord d properties required q
    let fresh := σ.Fresh p a.drawn ∧ τ.Fresh q b.drawn
    a.drawn = b.drawn ∧ Shape.AlikeWhen fresh (.record a.value) (.record b.value) ∧
      (fresh → a.value.nestedContexts = b.value.nestedContexts) := by
  intro a b fresh
  have hfirst := numbers_resolveWithin ⟨σ, limit⟩ limit
  have hsecond := numbers_resolveWithin ⟨τ, limit⟩ limit
  obtain ⟨hdrawn, hnameless⟩ := agree_resolveRecord Name.forgets_all hfirst hsecond
    (agree_resolveWithin Name.forgets_all ⟨σ, limit⟩ ⟨τ, limit⟩ limit) c d
    (Schema.override [] properties) required p q
  obtain ⟨_, hcontexts⟩ := agree_resolveRecord Name.forgets_unnumbered hfirst hsecond
    (agree_resolveWithin Name.forgets_unnumbered ⟨σ, limit⟩ ⟨τ, limit⟩ limit) c d
    (Schema.override [] properties) required p q
  refine ⟨hdrawn, ⟨fun v => ?_, fun h => ?_, fun h v => ?_⟩, fun h => ?_⟩
  -- Acceptance goes through what the schema admits, where no names occur.
  · rw [Shape.issues_eq_nil_iff, Shape.issues_eq_nil_iff, accepts_buildRecord_iff,
      accepts_buildRecord_iff]
  · exact (hnameless h.1 h.2).2 trivial
  · exact Shape.places_eq_of_rename_eq ((hnameless h.1 h.2).2 trivial) v
  · exact RecordShape.nestedContexts_eq (hcontexts h.1 h.2).1

/-- **Results do not depend on suffixes and tool names.** For one schema and one limit, any two
sources, positions and names give as many draws and the same verdicts; and the same tree, names
aside, the same places of issues, and below the top the same contexts, unless a suffix comes
twice. -/
theorem results_independent (limit : Nat) (σ τ : Source) (p q : Nat) :
    (∀ toolName otherName schema,
      let a := (⟨σ, limit⟩ : Converter).convert toolName schema p
      let b := (⟨τ, limit⟩ : Converter).convert otherName schema q
      let fresh := σ.Fresh p a.drawn ∧ τ.Fresh q b.drawn
      a.drawn = b.drawn ∧ Shape.AlikeWhen fresh (.record a.value) (.record b.value) ∧
        (fresh → a.value.nestedContexts = b.value.nestedContexts)) ∧
    (∀ c d properties required,
      let a := (⟨σ, limit⟩ : Converter).buildRecord c properties required p
      let b := (⟨τ, limit⟩ : Converter).buildRecord d properties required q
      let fresh := σ.Fresh p a.drawn ∧ τ.Fresh q b.drawn
      a.drawn = b.drawn ∧ Shape.AlikeWhen fresh (.record a.value) (.record b.value) ∧
        (fresh → a.value.nestedContexts = b.value.nestedContexts)) ∧
    ∀ c d node,
      let a := (⟨σ, limit⟩ : Converter).resolve node c p
      let b := (⟨τ, limit⟩ : Converter).resolve node d q
      a.drawn = b.drawn ∧
        Shape.AlikeWhen (σ.Fresh p a.drawn ∧ τ.Fresh q b.drawn) a.value b.value := by
  refine ⟨fun toolName otherName schema => ?_, fun c d properties required => ?_,
    fun c d node => ?_⟩
  · intro a b
    exact buildRecord_alike limit p q (Context.ofTool toolName) (Context.ofTool otherName)
      (Schema.properties schema) (Schema.requiredNames (schema.get? "required"))
  · exact buildRecord_alike limit p q c d properties required
  · intro a b
    obtain ⟨hdrawn, hvalue⟩ :=
      agree_resolveWithin Name.forgets_all ⟨σ, limit⟩ ⟨τ, limit⟩ limit node trivial p q
    refine ⟨hdrawn, fun v => ?_, fun h => hvalue h.1 h.2, fun h v => ?_⟩
    · rw [Shape.issues_eq_nil_iff, Shape.issues_eq_nil_iff, accepts_resolve_iff,
        accepts_resolve_iff]
    · exact Shape.places_eq_of_rename_eq (hvalue h.1 h.2) v

/-- Two alternatives of one shape stay two members, from whichever suffixes they are named. -/
theorem results_independent_for_twins :
    let object : Json := .obj [("type", .str "object"),
      ("properties", .obj [("key", .obj [("type", .str "string")])])]
    let schema : Json :=
      .obj [("properties", .obj [("filter", .obj [("anyOf", .arr [object, object])])])]
    let a := (⟨.counting 0, 4⟩ : Converter).convert "look up" schema 0
    let b := (⟨.counting (2 ^ 64 - 1), 4⟩ : Converter).convert "search" schema 7
    (Source.counting 0).Fresh 0 a.drawn ∧ (Source.counting (2 ^ 64 - 1)).Fresh 7 b.drawn ∧
    a.drawn = 3 ∧ b.drawn = 3 ∧
    (Shape.record a.value).nameless = (Shape.record b.value).nameless ∧
    (∀ v, (Shape.record a.value).places v = (Shape.record b.value).places v) ∧
    a.value.nestedContexts = b.value.nestedContexts := by
  intro object schema a b
  have hthree : b.drawn = 3 := by decide +kernel
  obtain ⟨hdrawn, halike, hcontexts⟩ :=
    (results_independent 4 (.counting 0) (.counting (2 ^ 64 - 1)) 0 7).1 "look up" "search" schema
  have hfresh : ∀ start position, (Source.counting start).Fresh position 3 :=
    fun start position => Source.fresh_counting start position (by decide)
  have ha : (Source.counting 0).Fresh 0 a.drawn := by
    rw [show a.drawn = b.drawn from hdrawn, hthree]
    exact hfresh 0 0
  have hb : (Source.counting (2 ^ 64 - 1)).Fresh 7 b.drawn := by
    rw [hthree]
    exact hfresh (2 ^ 64 - 1) 7
  exact ⟨ha, hb, hdrawn.trans hthree, hthree, halike.nameless_eq ⟨ha, hb⟩,
    halike.places_eq ⟨ha, hb⟩, hcontexts ⟨ha, hb⟩⟩

end Converter

end ToolShape
