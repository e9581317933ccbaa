import ToolShape.Proofs.Conversion.Contexts
import ToolShape.Proofs.Shape.Induction
import Mathlib.Data.String.Basic

/-!
# Where a record stands, and what its name tells of it

A finished shape no longer shows the nodes that it was read from: alternatives have been flattened
into one union and fields that may be left out have been made nullable. What is left of the place of
a record is its `Shape.Site`: the nearest field around it, and the lists between the two.
`Shape.sited` lists the records of a shape with their sites, in the order of `Shape.records`.

> **The name of a record gives its site away** (`Converter.names_tell_sites`): the context in it is
> that of the site, for the record of a tool and for every record below.
-/

set_option autoImplicit false

namespace ToolShape

open Name (Context generated parse?)

/-! ## Sites -/

/-- Where a record stands in a shape. -/
structure Shape.Site where
  /-- The nearest field around the record. -/
  field? : Option String
  /-- The number of lists between that field and the record, or around it when there is none. -/
  lists : Nat

namespace Shape.Site

/-- Around the whole shape. -/
def top : Site := ⟨none, 0⟩

def ofField (name : String) : Site := ⟨some name, 0⟩

def inList (site : Site) : Site := { site with lists := site.lists + 1 }

/-- The context of a site, in a shape that is resolved under an outer context. -/
def context (outer : Context) (site : Site) : Context :=
  let start := match site.field? with
    | some name => Context.titleCase name
    | none => outer.text
  ⟨start ++ String.join (List.replicate site.lists "Item")⟩

theorem context_top (outer : Context) : top.context outer = outer := by
  simp [context, top]

theorem context_ofField (outer : Context) (name : String) :
    (ofField name).context outer = Context.ofField name := by
  simp [context, ofField, Context.ofField]

theorem context_inList (outer : Context) (site : Site) :
    site.inList.context outer = (site.context outer).item := by
  simp [context, inList, Context.item, List.replicate_succ', String.join_append, String.append_assoc]

end Shape.Site

/-! ## The records of a shape, with their sites -/

open Shape (Site)

mutual

/-- The records in a shape that stands at a site. -/
def Shape.sited (site : Site) : Shape → List (Site × RecordShape)
  | .record r => r.sited site
  | .sequence items => items.sited site.inList
  | .union members => Shape.sitedAll site members
  | _ => []

def RecordShape.sited (site : Site) : RecordShape → List (Site × RecordShape)
  | ⟨name, fields⟩ => FieldShape.sitedAll fields ++ [(site, ⟨name, fields⟩)]

def Shape.sitedAll (site : Site) : List Shape → List (Site × RecordShape)
  | [] => []
  | s :: rest => s.sited site ++ Shape.sitedAll site rest

def FieldShape.sitedAll : List FieldShape → List (Site × RecordShape)
  | [] => []
  | ⟨name, shape, _, _⟩ :: rest => shape.sited (.ofField name) ++ FieldShape.sitedAll rest

end

/-- The records below a record, with their sites. -/
def RecordShape.sitedBelow (r : RecordShape) : List (Site × RecordShape) :=
  r.fields.flatMap fun f => f.shape.sited (.ofField f.name)

theorem Shape.sitedAll_eq_flatMap (site : Site) (members : List Shape) :
    Shape.sitedAll site members = members.flatMap (Shape.sited site) := by
  induction members with
  | nil => rfl
  | cons s rest ih => rw [Shape.sitedAll, ih, List.flatMap_cons]

theorem FieldShape.sitedAll_eq_flatMap (fields : List FieldShape) :
    FieldShape.sitedAll fields = fields.flatMap fun f => f.shape.sited (.ofField f.name) := by
  induction fields with
  | nil => rfl
  | cons f rest ih =>
    obtain ⟨name, shape, required, description⟩ := f
    rw [FieldShape.sitedAll, ih, List.flatMap_cons]

namespace Shape

@[simp] theorem sited_sequence (site : Site) (items : Shape) :
    (sequence items).sited site = items.sited site.inList := by
  rw [sited]

@[simp] theorem sited_record (site : Site) (r : RecordShape) :
    (record r).sited site = r.sitedBelow ++ [(site, r)] := by
  obtain ⟨name, fields⟩ := r
  rw [sited, RecordShape.sited, FieldShape.sitedAll_eq_flatMap, RecordShape.sitedBelow]

@[simp] theorem sited_union (site : Site) (members : List Shape) :
    (union members).sited site = members.flatMap (sited site) := by
  rw [sited, sitedAll_eq_flatMap]

/-- No record is left out, and none is listed twice. -/
theorem map_snd_sited (site : Site) (s : Shape) : (s.sited site).map Prod.snd = s.records := by
  induction s generalizing site with
  | sequence items ih => rw [sited_sequence, records_sequence, ih]
  | record name fields ih =>
    have hnested : (RecordShape.sitedBelow ⟨name, fields⟩).map Prod.snd =
        fields.flatMap (·.shape.records) := by
      rw [RecordShape.sitedBelow, List.map_flatMap]
      exact List.flatMap_congr fun f hf => ih f hf (.ofField f.name)
    rw [sited_record, records_record, List.map_append, hnested, List.map_singleton]
  | union members ih =>
    rw [sited_union, records_union, List.map_flatMap]
    exact List.flatMap_congr fun s hs => ih s hs site
  | _ => rfl

/-- A record in a list of lists, with a field of its own in between. -/
example (leg : FieldShape) (hleg : leg = .mandatory "leg" (.sequence (.record ⟨"Leg", []⟩)) "") :
    (sequence (sequence (record ⟨"Trip", [leg]⟩))).sited .top =
      [(⟨some "leg", 1⟩, ⟨"Leg", []⟩), (⟨none, 2⟩, ⟨"Trip", [leg]⟩)] := by
  subst hleg
  rfl

/-- Under a field there is a field around every record. -/
theorem isSome_field?_of_mem_sited {site : Site} (h : site.field?.isSome) (s : Shape) :
    ∀ p ∈ s.sited site, p.1.field?.isSome := by
  induction s generalizing site with
  | sequence items ih =>
    rw [sited_sequence]
    exact ih h
  | record name fields ih =>
    rw [sited_record]
    intro p hp
    rcases List.mem_append.mp hp with hnested | hself
    · obtain ⟨f, hf, hmem⟩ := List.mem_flatMap.mp hnested
      exact ih f hf rfl p hmem
    · rw [List.mem_singleton.mp hself]
      exact h
  | union members ih =>
    rw [sited_union]
    intro p hp
    obtain ⟨s, hs, hmem⟩ := List.mem_flatMap.mp hp
    exact ih s hs h p hmem
  | _ =>
    intro p hp
    cases hp

/-- Every record of a shape that is named for a context has the context of its site. -/
theorem NamedFor.of_mem_sited {outer context : Context} {s : Shape} (h : s.NamedFor context)
    {site : Site} (hsite : site.context outer = context) :
    ∀ p ∈ s.sited site, ∃ suffix, p.2.name = generated (p.1.context outer) suffix := by
  induction h generalizing site with
  | sequence inner ih =>
    rw [sited_sequence]
    apply ih
    rw [Site.context_inList, hsite]
  | record suffix inner ih =>
    rw [sited_record]
    intro p hp
    rcases List.mem_append.mp hp with hnested | hself
    -- Below a field the outer context is forgotten, and so is the site of the record around it.
    · obtain ⟨f, hf, hmem⟩ := List.mem_flatMap.mp hnested
      exact ih f hf (Site.context_ofField outer f.name) p hmem
    · rw [List.mem_singleton.mp hself, hsite]
      exact ⟨suffix, rfl⟩
  | union inner ih =>
    rw [sited_union]
    intro p hp
    obtain ⟨s, hs, hmem⟩ := List.mem_flatMap.mp hp
    exact ih s hs hsite p hmem
  | _ =>
    intro p hp
    cases hp

end Shape

/-! ## The records of a conversion -/

namespace RecordShape

theorem records_eq_sitedBelow (r : RecordShape) : r.records = r.sitedBelow.map Prod.snd ++ [r] := by
  have h := Shape.map_snd_sited .top (.record r)
  rw [Shape.sited_record, List.map_append, List.map_singleton, Shape.records] at h
  exact h.symm

theorem field?_of_mem_sitedBelow {r : RecordShape} {p : Site × RecordShape}
    (hp : p ∈ r.sitedBelow) : ∃ name, p.1.field? = some name := by
  obtain ⟨f, _, hmem⟩ := List.mem_flatMap.mp hp
  exact Option.isSome_iff_exists.mp (Shape.isSome_field?_of_mem_sited rfl f.shape p hmem)

end RecordShape

namespace Converter

/-- **The name of every record tells where it stands.** Every name is read back into a context and a
suffix. In the record of a tool the context at the top is that of the tool; below, there is always a
field around, and the context is that of the nearest one with a word for each list in between. A
node that is resolved by itself lends its context to the records that stand under no field. -/
theorem names_tell_sites (converter : Converter) (position : Nat) :
    (∀ toolName schema,
      let r := (converter.convert toolName schema position).value
      r.records = r.sitedBelow.map Prod.snd ++ [r] ∧
      (∃ suffix, parse? r.name = some (⟨Context.sanitize toolName ++ "Schema"⟩, suffix)) ∧
      ∀ p ∈ r.sitedBelow, ∃ fieldName suffix, p.1.field? = some fieldName ∧
        parse? p.2.name = some (⟨Context.titleCase fieldName ++
          String.join (List.replicate p.1.lists "Item")⟩, suffix)) ∧
    ∀ node context,
      let s := (converter.resolve node context position).value
      (s.sited .top).map Prod.snd = s.records ∧
      ∀ p ∈ s.sited .top, ∃ suffix, parse? p.2.name = some (p.1.context context, suffix) := by
  constructor
  · intro toolName schema r
    have hsited : ∀ p ∈ (Shape.record r).sited .top, ∃ suffix,
        p.2.name = generated (p.1.context (Context.ofTool toolName)) suffix :=
      (namedFor_convert converter toolName schema position).of_mem_sited
        (Site.context_top (Context.ofTool toolName))
    rw [Shape.sited_record] at hsited
    refine ⟨r.records_eq_sitedBelow, ?_, ?_⟩
    · obtain ⟨suffix, hname⟩ : ∃ suffix, r.name = generated _ suffix :=
        hsited (.top, r) (List.mem_append_right _ (List.mem_singleton_self _))
      refine ⟨suffix, ?_⟩
      rw [hname, Name.parse?_generated, Site.context_top, Context.ofTool]
    · intro p hp
      obtain ⟨fieldName, hfield⟩ := RecordShape.field?_of_mem_sitedBelow hp
      obtain ⟨suffix, hname⟩ := hsited p (List.mem_append_left _ hp)
      refine ⟨fieldName, suffix, hfield, ?_⟩
      rw [hname, Name.parse?_generated, Site.context, hfield]
  · intro node context s
    refine ⟨s.map_snd_sited .top, ?_⟩
    intro p hp
    have hnamed : s.NamedFor context :=
      namesFor_resolveWithin converter converter.maxDepth node context position
    obtain ⟨suffix, hname⟩ := hnamed.of_mem_sited (Site.context_top context) p hp
    refine ⟨suffix, ?_⟩
    rw [hname, Name.parse?_generated]

end Converter

end ToolShape
