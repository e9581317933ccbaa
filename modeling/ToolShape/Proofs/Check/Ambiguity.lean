import ToolShape.Proofs.Check.Repair
import ToolShape.Proofs.Conversion.WellFormed

/-!
# When paths tell places apart

The issues of a value are at different places (`Shape.nodup_places_issues`). Their paths need not be
different: a path puts a slash before each name, and a name may hold slashes of its own. So a field
`a/b` and the field `b` in a field `a` share a path.

> **Where no field of a record has the name of another one with a slash and more behind it, a path is
> the path of one place** (`Shape.Reaches.eq_of_path_eq`).

Slashes as such do no harm. Two paths are compared step by step from the top, and before each step
both are at the same record or list. If they agree, their next names agree as well, or one of the
names goes on behind the other one and a slash. That is what the fields of a record must not do, and
what indices cannot do.
-/

set_option autoImplicit false

namespace ToolShape

/-! ## Paths, step by step -/

namespace Place

theorem toList_path_cons (step : Step) (place : Place) :
    (path (step :: place)).toList = '/' :: (step.key.toList ++ place.path.toList) := by
  rw [toList_path, toList_path, keys_cons, List.flatMap_cons, List.cons_append]

theorem path_cons_ne_empty (step : Step) (place : Place) : path (step :: place) ≠ "" := by
  intro h
  have hlist := congrArg String.toList h
  rw [toList_path_cons] at hlist
  cases hlist

theorem path_eq_empty_iff {place : Place} : place.path = "" ↔ place = [] := by
  constructor
  · intro h
    cases place with
    | nil => rfl
    | cons step rest => exact absurd h (path_cons_ne_empty step rest)
  · rintro rfl
    rfl

/-- Behind a name in a path stands a slash, or nothing. -/
theorem head?_toList_path (place : Place) : ∀ c ∈ place.path.toList.head?, c = '/' := by
  rcases exists_path_eq_iff.mp ⟨place, rfl⟩ with hpath | ⟨rest, hpath⟩
  · simp [hpath]
  · simp [hpath]

/-- Of two texts before a slash or an end, neither of which goes on behind the other one and a slash,
each is where the other one is. -/
theorem cut_at_slash {a b x y : List Char} (hx : ∀ c ∈ x.head?, c = '/')
    (hy : ∀ c ∈ y.head?, c = '/') (hab : ¬ a ++ ['/'] <+: b) (hba : ¬ b ++ ['/'] <+: a)
    (h : a ++ x = b ++ y) : a = b ∧ x = y := by
  rcases List.append_eq_append_iff.mp h with ⟨more, hb, hmore⟩ | ⟨more, ha, hmore⟩
  · cases more with
    | nil => exact ⟨by simpa using hb.symm, by simpa using hmore⟩
    | cons c rest =>
      -- What `b` has more than `a` starts with the slash that stands behind `a`.
      cases hx c (by rw [hmore]; rfl)
      exact absurd ⟨rest, by rw [hb]; simp⟩ hab
  · cases more with
    | nil => exact ⟨by simpa using ha, by simpa using hmore.symm⟩
    | cons c rest =>
      cases hy c (by rw [hmore]; rfl)
      exact absurd ⟨rest, by rw [ha]; simp⟩ hba

/-- The name of a step goes on behind that of another one and a slash. -/
def Extends (step other : Step) : Prop := step.key.toList ++ ['/'] <+: other.key.toList

/-- Equal paths take equal first steps, unless the name of one extends that of the other. -/
theorem path_cons_inj {step other : Step} {place rest : Place} (hextends : ¬ Extends step other)
    (hextended : ¬ Extends other step) (h : path (step :: place) = path (other :: rest)) :
    step.key = other.key ∧ place.path = rest.path := by
  have hlist := congrArg String.toList h
  rw [toList_path_cons, toList_path_cons, List.cons.injEq] at hlist
  obtain ⟨hkey, hplace⟩ := cut_at_slash (head?_toList_path place) (head?_toList_path rest) hextends
    hextended hlist.2
  exact ⟨String.toList_inj.mp hkey, String.toList_inj.mp hplace⟩

/-- An index has no slash to go on behind. -/
theorem not_extends_item (step : Step) (index : Nat) : ¬ Extends step (.item index) := by
  intro h
  exact slash_not_mem_key_item index (h.subset (List.mem_append_right _ (List.mem_singleton_self _)))

end Place

/-! ## The places that a shape reaches -/

/-- No field has the name of another one with a slash and more behind it. -/
def RecordShape.Unambiguous (r : RecordShape) : Prop :=
  ∀ name ∈ r.fieldNames, ∀ other ∈ r.fieldNames, ¬ Place.Extends (.field name) (.field other)

namespace Shape

/-- A shape reaches the places it may find issues at: down lists, records, and unions with one
member besides `null`. -/
inductive Reaches : Shape → Place → Prop where
  | here (s : Shape) : Reaches s []
  | item {items : Shape} {place : Place} (index : Nat) (inner : Reaches items place) :
    Reaches (.sequence items) (.item index :: place)
  | field {name : String} {fields : List FieldShape} {f : FieldShape} {place : Place}
    (member : f ∈ fields) (inner : Reaches f.shape place) :
    Reaches (.record ⟨name, fields⟩) (.field f.name :: place)
  | only {members : List Shape} {only : Shape} {place : Place}
    (alone : members.filter (!·.isNull) = [only]) (inner : Reaches only place) :
    Reaches (.union members) place

variable {s : Shape} {v : Json} {issue : Issue}

theorem Finds.reaches (h : s.Finds v issue) : s.Reaches issue.place := by
  induction h with
  | top place_eq _ =>
    rw [place_eq]
    exact .here _
  | item _ _ ih => exact .item _ ih
  | missing member _ _ => exact .field member (.here _)
  | field member _ _ _ ih => exact .field member ih
  | only _ alone _ ih => exact .only alone ih

/-- **A path is the path of one place.** By induction on the steps to the first place; at each step
the other place is in the same record or list. -/
theorem Reaches.eq_of_path_eq {place other : Place}
    (hnames : s.EachRecord fun r => r.fieldNames.Nodup)
    (hclear : s.EachRecord RecordShape.Unambiguous) (h : s.Reaches place) (h' : s.Reaches other)
    (hpath : place.path = other.path) : place = other := by
  induction h generalizing other with
  | here => exact (Place.path_eq_empty_iff.mp hpath.symm).symm
  | item index inner ih =>
    cases h' with
    | here => exact absurd hpath (Place.path_cons_ne_empty _ _)
    | item index' inner' =>
      obtain ⟨hkey, hrest⟩ := Place.path_cons_inj (Place.not_extends_item _ _)
        (Place.not_extends_item _ _) hpath
      rw [Place.key_item_inj hkey, ih (eachRecord_sequence_iff.mp hnames)
        (eachRecord_sequence_iff.mp hclear) inner' hrest]
  | @field name fields f place member inner ih =>
    cases h' with
    | here => exact absurd hpath (Place.path_cons_ne_empty _ _)
    | @field _ _ g other member' inner' =>
      obtain ⟨hfields, hnodup⟩ := eachRecord_record_iff.mp hnames
      obtain ⟨hparts, hextends⟩ := eachRecord_record_iff.mp hclear
      have hf : f.name ∈ fields.map FieldShape.name := List.mem_map_of_mem member
      have hg : g.name ∈ fields.map FieldShape.name := List.mem_map_of_mem member'
      obtain ⟨hkey, hrest⟩ := Place.path_cons_inj (hextends _ hf _ hg) (hextends _ hg _ hf) hpath
      cases List.inj_on_of_nodup_map hnodup member member' hkey
      rw [ih (hfields f member) (hparts f member) inner' hrest]
  | only alone inner ih =>
    have hmem := mem_of_filter_eq_singleton alone
    refine ih (eachRecord_union_iff.mp hnames _ hmem) (eachRecord_union_iff.mp hclear _ hmem) ?_ hpath
    cases h' with
    | here => exact .here _
    | only alone' inner' =>
      cases alone.symm.trans alone'
      exact inner'

/-! ## The issues of a value -/

theorem nodup_places_issues (hnames : s.EachRecord fun r => r.fieldNames.Nodup) :
    ((s.issues v).map Issue.place).Nodup := by
  have hkeys := nodup_keys_issues (v := v) hnames
  rw [show (fun issue : Issue => issue.place.keys) = Place.keys ∘ Issue.place from rfl,
    ← List.map_map] at hkeys
  exact hkeys.of_map

/-- Issues at different places have different paths, where a path stands for one place. -/
theorem nodup_paths_of_places (hnodup : ((s.issues v).map Issue.place).Nodup)
    (hpath : ∀ issue ∈ s.issues v, ∀ other ∈ s.issues v,
      issue.path = other.path → issue.place = other.place) :
    ((s.issues v).map Issue.path).Nodup := by
  refine (List.Nodup.of_map _ hnodup).map_on fun issue hissue other hother hsame => ?_
  exact List.inj_on_of_nodup_map hnodup hissue hother (hpath issue hissue other hother hsame)

/-- The top is shown as a lone slash, but when something is wrong there, nothing else is. -/
theorem nodup_locations_of_paths (h : ((s.issues v).map Issue.path).Nodup) :
    ((s.issues v).map Issue.location).Nodup := by
  cases htop : (s.issues v).find? (·.place.isEmpty) with
  | some issue =>
    have hmem := List.mem_of_find?_eq_some htop
    have hplace : issue.place = [] := List.isEmpty_iff.mp (List.find?_some htop :)
    rw [(finds_of_mem_issues hmem).eq_singleton hplace]
    exact List.nodup_singleton _
  | none =>
    have hlocation : (s.issues v).map Issue.location = (s.issues v).map Issue.path := by
      refine List.map_congr_left fun issue hissue => ?_
      have hne := List.find?_eq_none.mp htop issue hissue
      exact if_neg fun hempty => hne (List.isEmpty_iff.mpr (Place.path_eq_empty_iff.mp hempty))
    rwa [hlocation]

/-- The records in a formed shape name no field twice. -/
theorem AllFormed.nodup_fieldNames (h : s.AllFormed) :
    s.EachRecord fun r => r.fieldNames.Nodup := by
  induction s with
  | unknown | scalar | literal | mapping => exact fun r hr => by cases hr
  | sequence items ih => exact eachRecord_sequence_iff.mpr (ih fun t ht => h t (.item ht))
  | record name fields ih =>
    refine eachRecord_record_iff.mpr ⟨fun f hf => ih f hf fun t ht => h t (.field hf ht), ?_⟩
    exact h.formed.2.names_nodup
  | union members ih =>
    exact eachRecord_union_iff.mpr fun t ht => ih t ht fun u hu => h u (.member ht hu)

end Shape

theorem RecordShape.FormedTop.nodup_fieldNames {limit : Nat} {r : RecordShape}
    (h : r.FormedTop limit) : (Shape.record r).EachRecord fun r => r.fieldNames.Nodup := by
  obtain ⟨name, fields⟩ := r
  exact Shape.eachRecord_record_iff.mpr
    ⟨fun f hf => (h.parts f hf).nodup_fieldNames, h.consistent.names_nodup⟩

/-! ## Converted tools -/

namespace Converter

/-- **What the paths of a tool's issues tell.** In any arguments the issues are at different places.
If no record of the tool has a field with the name of another one and a slash and more behind it,
their paths and their locations are different too, and whatever the arguments are, a path is the path
of one place. -/
theorem paths_tell_places (converter : Converter) (toolName : String) (schema : Json)
    (position : Nat) :
    let r := (converter.convert toolName schema position).value
    (∀ v, ((r.issues v).map Issue.place).Nodup) ∧
    ((Shape.record r).EachRecord RecordShape.Unambiguous →
      (∀ v, ((r.issues v).map Issue.path).Nodup ∧ ((r.issues v).map Issue.location).Nodup) ∧
      ∀ v w, ∀ issue ∈ r.issues v, ∀ other ∈ r.issues w,
        issue.path = other.path → issue.place = other.place) := by
  intro r
  have hnames : (Shape.record r).EachRecord fun r => r.fieldNames.Nodup :=
    (formedTop_convert converter toolName schema position).nodup_fieldNames
  have hplaces : ∀ v, (((Shape.record r).issues v).map Issue.place).Nodup := fun v =>
    Shape.nodup_places_issues hnames
  refine ⟨hplaces, fun hclear => ?_⟩
  have hone : ∀ v w, ∀ issue ∈ (Shape.record r).issues v, ∀ other ∈ (Shape.record r).issues w,
      issue.path = other.path → issue.place = other.place := by
    intro v w issue hissue other hother
    exact (Shape.finds_of_mem_issues hissue).reaches.eq_of_path_eq hnames hclear
      (Shape.finds_of_mem_issues hother).reaches
  refine ⟨fun v => ?_, hone⟩
  have hpaths := Shape.nodup_paths_of_places (hplaces v) (hone v v)
  exact ⟨hpaths, Shape.nodup_locations_of_paths hpaths⟩

/-- The fields of a clipboard are called by media types. Their names hold slashes, and neither goes on
behind the other one. -/
theorem paths_tell_places_for_media_types :
    let text : Json := .obj [("type", .str "string")]
    let rows : Json := .obj [("type", .str "array"), ("items", text)]
    let schema : Json := .obj [("properties", .obj [("text/plain", text), ("text/csv", rows)]),
      ("required", .arr [.str "text/plain", .str "text/csv"])]
    let converter : Converter := ⟨.counting 0, 64⟩
    let r := (converter.convert "paste" schema 0).value
    let found := r.issues (.obj [("text/csv", .arr [.str "1,2", .null])])
    (Shape.record r).EachRecord RecordShape.Unambiguous ∧
      found.map Issue.path = ["/text/plain", "/text/csv/1"] ∧
      (found.map Issue.path).Nodup ∧ (found.map Issue.location).Nodup := by
  intro text rows schema converter r found
  have hclear : (Shape.record r).EachRecord RecordShape.Unambiguous := by
    intro inner hinner
    have hself : inner = r := List.mem_singleton.mp hinner
    have hnames : r.fieldNames = ["text/plain", "text/csv"] := rfl
    rw [hself, RecordShape.Unambiguous, hnames]
    unfold Place.Extends
    decide
  obtain ⟨_, htell⟩ := paths_tell_places converter "paste" schema 0
  obtain ⟨hnodup, _⟩ := htell hclear
  exact ⟨hclear, rfl, hnodup _⟩

/-- **Two issues can share a path.** A field is called `a/b`, and another one, `a`, has a field `b`.
Where both are missing, the one path stands for two places. -/
theorem slashed_name_shares_path :
    let text : Json := .obj [("type", .str "string")]
    let nested : Json := .obj [("type", .str "object"), ("properties", .obj [("b", text)]),
      ("required", .arr [.str "b"])]
    let schema : Json := .obj [("properties", .obj [("a/b", text), ("a", nested)]),
      ("required", .arr [.str "a/b", .str "a"])]
    let converter : Converter := ⟨.counting 0, 64⟩
    let found := (converter.convert "tag" schema 0).value.issues (.obj [("a", .obj [])])
    ∃ issue ∈ found, ∃ other ∈ found,
      issue.place ≠ other.place ∧ issue.path = other.path ∧ issue.location = other.location := by
  intro text nested schema converter found
  have hfound : found = [⟨[.field "a/b"], .missing⟩, ⟨[.field "a", .field "b"], .missing⟩] := rfl
  rw [hfound]
  exact ⟨_, List.mem_cons_self, _, List.mem_cons_of_mem _ List.mem_cons_self,
    by decide, by decide, by decide⟩

end Converter

end ToolShape
