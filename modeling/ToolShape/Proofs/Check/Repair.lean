import ToolShape.Proofs.Check.Acceptance
import ToolShape.Proofs.Check.Path

/-!
# Repairing a value

Each issue tells of one place, and what is wrong there is wrong whatever stands elsewhere. So a value
can be repaired place by place:

> **Where the value at the place of an issue is replaced by one that is accepted there, that issue
> is gone, and all others are found again as they were** (`Shape.Finds.issues_putAt`).

That takes three facts. An issue at the top of a value is the only one (`Shape.Finds.eq_singleton`),
so no issue tells of a part of a place that another one tells of. What stands under another field or
at another index is not touched. And a union that reports through its only member besides `null` goes
on doing so, since a value that is repaired inside does not become `null`.

Repairs are made along paths, as issues show them (`issues_repaired`). A path names one place only if
no field has a slash in its name and no record has two fields of one name (`Shape.Addressable`).
-/

set_option autoImplicit false

namespace ToolShape

open Json (Fields)

/-! ## Values along keys -/

namespace Json

/-- A value with another one where some keys lead to. A key that an object lacks is added to it. -/
def putAt : Json → (keys : List String) → Json → Json
  | _, [], w => w
  | .obj object, key :: rest, w =>
    .obj (Fields.put object key (((Fields.get? object key).getD .null).putAt rest w))
  | .arr vs, key :: rest, w =>
    .arr (vs.zipIdx.map fun (v, i) => if (Step.item i).key = key then v.putAt rest w else v)
  | v, _ :: _, _ => v

@[simp] theorem putAt_nil (v w : Json) : v.putAt [] w = w := by
  unfold putAt
  rfl

theorem putAt_obj (object : Fields) (key : String) (rest : List String) (w : Json) :
    (obj object).putAt (key :: rest) w =
      .obj (Fields.put object key (((Fields.get? object key).getD .null).putAt rest w)) := by
  rw [putAt]

theorem putAt_arr (vs : List Json) (key : String) (rest : List String) (w : Json) :
    (arr vs).putAt (key :: rest) w =
      .arr (vs.zipIdx.map fun (v, i) => if (Step.item i).key = key then v.putAt rest w else v) := by
  rw [putAt]

/-- Inside of a value other than `null` nothing is put that makes it `null`. -/
theorem isNull_putAt_cons (v : Json) (key : String) (rest : List String) (w : Json) :
    (v.putAt (key :: rest) w).isNull = v.isNull := by
  cases v <;> simp [putAt, isNull]

end Json

/-! ## The shape that governs a place -/

/-- A shape governs the place that some keys lead to: down lists, records, and unions with one
member besides `null`. -/
inductive Shape.Governs : Shape → (keys : List String) → Shape → Prop where
  | here (t : Shape) : Governs t [] t
  | item {items s : Shape} {keys : List String} (index : Nat) (inner : Governs items keys s) :
    Governs (.sequence items) ((Step.item index).key :: keys) s
  | field {name : String} {fields : List FieldShape} {f : FieldShape} {s : Shape}
    {keys : List String} (member : f ∈ fields) (inner : Governs f.shape keys s) :
    Governs (.record ⟨name, fields⟩) (f.name :: keys) s
  | only {members : List Shape} {only s : Shape} {keys : List String}
    (alone : members.filter (!·.isNull) = [only]) (inner : Governs only keys s) :
    Governs (.union members) keys s

namespace Shape

/-- The fields of each record have different names, and no name holds a slash. -/
def Addressable (t : Shape) : Prop :=
  ∀ r ∈ t.records, r.fieldNames.Nodup ∧ ∀ name ∈ r.fieldNames, '/' ∉ name.toList

theorem Addressable.nodup_fieldNames {t : Shape} (h : t.Addressable) :
    t.EachRecord fun r => r.fieldNames.Nodup :=
  fun r hr => (h r hr).1

theorem Addressable.items {items : Shape} (h : (sequence items).Addressable) :
    items.Addressable := by
  intro r hr
  exact h r (by rwa [records_sequence])

theorem Addressable.field {name : String} {fields : List FieldShape}
    (h : (record ⟨name, fields⟩).Addressable) {f : FieldShape} (hf : f ∈ fields) :
    f.shape.Addressable :=
  fun r hr => h r (mem_records_of_field hf hr)

theorem Addressable.record {name : String} {fields : List FieldShape}
    (h : (record ⟨name, fields⟩).Addressable) :
    (fields.map FieldShape.name).Nodup ∧ ∀ f ∈ fields, '/' ∉ f.name.toList := by
  obtain ⟨hnodup, hslash⟩ := h _ (mem_records_self name fields)
  exact ⟨hnodup, fun f hf => hslash f.name (List.mem_map_of_mem hf)⟩

theorem Addressable.member {members : List Shape} (h : (union members).Addressable) {s : Shape}
    (hs : s ∈ members) : s.Addressable :=
  fun r hr => h r (mem_records_of_member hs hr)

/-- What is accepted where a place is governed is accepted at the place. -/
theorem Governs.issues_eq_nil {t s : Shape} (h : t.Governs [] s) {w : Json} (hw : s.issues w = []) :
    t.issues w = [] := by
  generalize hkeys : ([] : List String) = keys at h
  induction h with
  | here => exact hw
  | item => cases hkeys
  | field => cases hkeys
  | only alone _ ih =>
    rw [issues_union_eq_nil_iff]
    exact ⟨_, mem_of_filter_eq_singleton alone, ih hw hkeys⟩

end Shape

theorem governs_of_sequence {items s : Shape} {key : String} {keys : List String}
    (h : (Shape.sequence items).Governs (key :: keys) s) : items.Governs keys s := by
  cases h with
  | item _ inner => exact inner

theorem governs_of_record {name : String} {fields : List FieldShape} {s : Shape} {key : String}
    {keys : List String} (h : (Shape.record ⟨name, fields⟩).Governs (key :: keys) s) :
    ∃ f ∈ fields, f.name = key ∧ f.shape.Governs keys s := by
  cases h with
  | field member inner => exact ⟨_, member, rfl, inner⟩

theorem governs_of_union {members : List Shape} {only s : Shape} {key : String}
    {keys : List String} (alone : members.filter (!·.isNull) = [only])
    (h : (Shape.union members).Governs (key :: keys) s) : only.Governs (key :: keys) s := by
  cases h with
  | only alone' inner =>
    rw [alone] at alone'
    cases alone'
    exact inner

/-! ## Where issues are found -/

/-- How a shape comes to find an issue: at the top, and then nothing else, or further down. -/
inductive Shape.Finds : Shape → Json → Issue → Prop where
  | top {t : Shape} {v : Json} {issue : Issue} (place_eq : issue.place = [])
    (alone : t.issues v = [issue]) : Finds t v issue
  | item {items : Shape} {vs : List Json} {v : Json} {index : Nat} {issue : Issue}
    (present : (v, index) ∈ vs.zipIdx) (inner : Finds items v issue) :
    Finds (.sequence items) (.arr vs) (issue.under [.item index])
  | missing {name : String} {fields : List FieldShape} {f : FieldShape} {object : Fields}
    (member : f ∈ fields) (absent : object.get? f.name = none) (required : f.required = true) :
    Finds (.record ⟨name, fields⟩) (.obj object) ⟨[.field f.name], .missing⟩
  | field {name : String} {fields : List FieldShape} {f : FieldShape} {object : Fields} {v : Json}
    {issue : Issue} (member : f ∈ fields) (present : object.get? f.name = some v)
    (checked : (v.isNull && !f.required) = false) (inner : Finds f.shape v issue) :
    Finds (.record ⟨name, fields⟩) (.obj object) (issue.under [.field f.name])
  | only {members : List Shape} {only : Shape} {v : Json} {issue : Issue}
    (rejected : anyAccepts members v [] = false) (alone : members.filter (!·.isNull) = [only])
    (inner : Finds only v issue) : Finds (.union members) v issue

namespace Shape

/-- A shape that reports nothing or one issue at the top. -/
theorem finds_of_eq_singleton {t : Shape} {v : Json} {issue : Issue} {mismatch : Mismatch}
    (h : issue ∈ t.issues v) (heq : t.issues v = [⟨[], mismatch⟩]) : t.Finds v issue := by
  rw [heq] at h
  cases List.mem_singleton.mp h
  exact .top rfl heq

/-- **Every issue is found in one of these ways.** -/
theorem finds_of_mem_issues {t : Shape} {v : Json} {issue : Issue} (h : issue ∈ t.issues v) :
    t.Finds v issue := by
  induction t generalizing v issue with
  | unknown => simp at h
  | scalar kind =>
    have heq := h
    rw [issues, check_scalar] at heq
    split at heq
    · cases heq
    · next mismatch hm =>
      apply finds_of_eq_singleton h
      rw [issues, check_scalar, hm]
      rfl
  | literal values =>
    have heq := h
    rw [issues, check_literal] at heq
    split at heq
    · cases heq
    · next hlisted =>
      apply finds_of_eq_singleton h
      rw [issues, check_literal, if_neg hlisted]
      rfl
  | mapping =>
    cases v with
    | obj object => cases h
    | _ => exact finds_of_eq_singleton h rfl
  | sequence items ih =>
    cases v with
    | arr vs =>
      rw [issues_sequence_arr] at h
      obtain ⟨⟨v, index⟩, present, hmem⟩ := List.mem_flatMap.mp h
      obtain ⟨inner, hinner, rfl⟩ := List.mem_map.mp hmem
      exact .item present (ih hinner)
    | _ => exact finds_of_eq_singleton h rfl
  | record name fields ih =>
    cases v with
    | obj object =>
      rw [issues_record_obj] at h
      obtain ⟨f, member, hmem⟩ := List.mem_flatMap.mp h
      cases hget : Fields.get? object f.name with
      | none =>
        rw [FieldShape.issuesIn_of_none hget] at hmem
        split at hmem
        · next required =>
          cases List.mem_singleton.mp hmem
          exact .missing member hget required
        · cases hmem
      | some v =>
        rw [FieldShape.issuesIn_of_some hget] at hmem
        split at hmem
        · cases hmem
        · next checked =>
          obtain ⟨inner, hinner, rfl⟩ := List.mem_map.mp hmem
          exact .field member hget (Bool.not_eq_true _ |>.mp checked) (ih f member hinner)
    | _ => exact finds_of_eq_singleton h rfl
  | union members ih =>
    have hcases := issues_union members v
    split at hcases
    · rw [hcases] at h
      cases h
    · next rejected =>
      split at hcases
      · next only alone =>
        rw [hcases] at h
        exact .only (Bool.not_eq_true _ |>.mp rejected) alone
          (ih only (mem_of_filter_eq_singleton alone) h)
      · exact finds_of_eq_singleton h hcases

variable {t s : Shape} {v w : Json} {issue : Issue}

/-- An issue at the top of a value is the only one. -/
theorem Finds.eq_singleton (h : t.Finds v issue) (htop : issue.place = []) :
    t.issues v = [issue] := by
  induction h with
  | top _ alone => exact alone
  | item => cases htop
  | missing => cases htop
  | field => cases htop
  | only rejected alone _ ih =>
    rw [issues_union, rejected, alone]
    exact ih htop

/-- The keys of a place that an issue tells of have no slashes. -/
theorem Finds.slash_not_mem (h : t.Finds v issue) (ht : t.Addressable) :
    ∀ key ∈ issue.place.keys, '/' ∉ key.toList := by
  induction h with
  | top place_eq _ => simp [place_eq]
  | item _ _ ih => exact List.forall_mem_cons.mpr ⟨Place.slash_not_mem_key_item _, ih ht.items⟩
  | missing member _ _ => exact List.forall_mem_singleton.mpr (ht.record.2 _ member)
  | field member _ _ _ ih =>
    exact List.forall_mem_cons.mpr ⟨ht.record.2 _ member, ih (ht.field member)⟩
  | only _ alone _ ih => exact ih (ht.member (mem_of_filter_eq_singleton alone))

/-- Every place that an issue tells of is governed by a shape. -/
theorem Finds.governed (h : t.Finds v issue) : ∃ s, t.Governs issue.place.keys s := by
  induction h with
  | top place_eq _ => exact ⟨_, by rw [place_eq]; exact .here _⟩
  | @item _ _ _ index _ _ _ ih =>
    obtain ⟨s, hs⟩ := ih
    exact ⟨s, .item index hs⟩
  | missing member _ _ => exact ⟨_, .field member (.here _)⟩
  | field member _ _ _ ih =>
    obtain ⟨s, hs⟩ := ih
    exact ⟨s, .field member hs⟩
  | only _ alone _ ih =>
    obtain ⟨s, hs⟩ := ih
    exact ⟨s, .only alone hs⟩

/-! ## One repair -/

/-- The issues of a value that are not found at some keys. -/
def issuesApart (t : Shape) (v : Json) (keys : List String) : List Issue :=
  (t.issues v).filter fun issue => issue.place.keys ≠ keys

/-- Below a step, the issues at some keys are those of the step at the keys behind it. -/
theorem filter_map_under (step : Step) (key : String) (keys : List String) (found : List Issue) :
    (found.map (Issue.under [step])).filter (fun issue => issue.place.keys ≠ key :: keys) =
      if step.key = key then
        (found.filter fun issue => issue.place.keys ≠ keys).map (Issue.under [step])
      else found.map (Issue.under [step]) := by
  rw [List.filter_map]
  split
  · next h =>
    congr 1
    refine List.filter_congr fun issue _ => ?_
    simp [Issue.under, h]
  · next h =>
    congr 1
    refine List.filter_eq_self.mpr fun issue _ => ?_
    simp [Issue.under, h]

/-- `null` finds nothing in `null` alone. -/
theorem issues_eq_nil_iff_of_isNull (ht : t.isNull = true) : t.issues v = [] ↔ v.isNull = true := by
  rw [issues_eq_nil_iff]
  cases t with
  | scalar kind =>
    rw [accepts_scalar_iff]
    cases kind <;> cases ht
    cases v <;> simp [Scalar.fits, Json.isNull]
  | _ => cases ht

theorem issues_putAt_of_top (h : t.Finds v issue) (htop : issue.place = [])
    (hs : t.Governs issue.place.keys s) (hw : s.issues w = []) :
    t.issues (v.putAt issue.place.keys w) = t.issuesApart v issue.place.keys := by
  rw [issuesApart, h.eq_singleton htop]
  rw [htop, Place.keys_nil] at hs ⊢
  rw [Json.putAt_nil, hs.issues_eq_nil hw]
  simp [htop]

theorem zipIdx_map_zipIdx {α β : Type} (f : α × Nat → β) (entries : List α) (start : Nat) :
    ((entries.zipIdx start).map f).zipIdx start = (entries.zipIdx start).map fun p => (f p, p.2) := by
  induction entries generalizing start with
  | nil => rfl
  | cons a rest ih => simp [ih]

/-- The items at other indices are not touched. -/
theorem issues_putAt_item {items : Shape} {vs : List Json} {index : Nat} {keys : List String}
    (present : (v, index) ∈ vs.zipIdx)
    (h : items.issues (v.putAt keys w) = items.issuesApart v keys) :
    (sequence items).issues ((Json.arr vs).putAt ((Step.item index).key :: keys) w) =
      (sequence items).issuesApart (.arr vs) ((Step.item index).key :: keys) := by
  rw [Json.putAt_arr, issues_sequence_arr, zipIdx_map_zipIdx, List.flatMap_map, issuesApart,
    issues_sequence_arr, List.filter_flatMap]
  refine List.flatMap_congr fun ⟨u, i⟩ hu => ?_
  rw [filter_map_under]
  dsimp only
  split
  · next hkey =>
    -- At one index stands one item.
    cases Place.key_item_inj hkey
    rw [List.mem_zipIdx_iff_getElem?] at present hu
    cases present.symm.trans hu
    rw [h, issuesApart]
  · rfl

/-- The fields of other names are not touched. -/
theorem issues_putAt_field {name : String} {fields : List FieldShape} {f : FieldShape}
    {object : Fields} {keys : List String} (hnodup : (fields.map FieldShape.name).Nodup)
    (member : f ∈ fields)
    (h : f.issuesIn (object.put f.name (((object.get? f.name).getD .null).putAt keys w)) =
      (f.issuesIn object).filter fun issue => issue.place.keys ≠ f.name :: keys) :
    (record ⟨name, fields⟩).issues ((Json.obj object).putAt (f.name :: keys) w) =
      (record ⟨name, fields⟩).issuesApart (.obj object) (f.name :: keys) := by
  rw [Json.putAt_obj, issues_record_obj, issuesApart, issues_record_obj, List.filter_flatMap]
  refine List.flatMap_congr fun g hg => ?_
  by_cases hname : f.name = g.name
  · cases List.inj_on_of_nodup_map hnodup member hg hname
    exact h
  · have hsame : g.issuesIn (object.put f.name (((object.get? f.name).getD .null).putAt keys w)) =
        g.issuesIn object := by
      unfold FieldShape.issuesIn
      rw [Fields.get?_put_of_ne _ _ hname]
    rw [hsame]
    refine (List.filter_eq_self.mpr fun issue hissue => ?_).symm
    obtain ⟨rest, hplace⟩ := FieldShape.exists_place_of_mem_issuesIn hissue
    have hkey : g.name ≠ f.name := Ne.symm hname
    simp [hplace, Step.key, hkey]

/-- A field that has been repaired inside is checked as before. -/
theorem issuesIn_putAt {f : FieldShape} {object : Fields} {keys : List String}
    (present : object.get? f.name = some v) (checked : (v.isNull && !f.required) = false)
    (hs : f.shape.Governs keys s) (hw : s.issues w = [])
    (h : f.shape.issues (v.putAt keys w) = f.shape.issuesApart v keys) :
    f.issuesIn (object.put f.name (((object.get? f.name).getD .null).putAt keys w)) =
      (f.issuesIn object).filter fun issue => issue.place.keys ≠ f.name :: keys := by
  rw [present, Option.getD_some, FieldShape.issuesIn_of_some (Fields.get?_put_self _ _ _),
    FieldShape.issuesIn_of_some present, checked]
  have hkey : (Step.field f.name).key = f.name := rfl
  rw [if_neg Bool.false_ne_true, filter_map_under, if_pos hkey, ← issuesApart, ← h]
  split
  · next hnull =>
    -- An optional field may become `null` only as a whole, and then that is accepted.
    cases keys with
    | nil => rw [Json.putAt_nil, hs.issues_eq_nil hw, List.map_nil]
    | cons key rest =>
      rw [Json.isNull_putAt_cons, checked] at hnull
      cases hnull
  · rfl

/-- A union goes on reporting through its only member besides `null`. -/
theorem issues_putAt_only {members : List Shape} {only : Shape} {key : String}
    {keys : List String} (rejected : anyAccepts members v [] = false)
    (alone : members.filter (!·.isNull) = [only])
    (h : only.issues (v.putAt (key :: keys) w) = only.issuesApart v (key :: keys)) :
    (union members).issues (v.putAt (key :: keys) w) =
      (union members).issuesApart v (key :: keys) := by
  have hbefore : (union members).issues v = only.issues v := by
    rw [issues_union, rejected, alone]
    rfl
  rw [issuesApart, hbefore, ← issuesApart, ← h, issues_union, alone]
  split
  · next haccepted =>
    obtain ⟨m, hm, hnone⟩ := anyAccepts_iff.mp haccepted
    cases hnull : m.isNull with
    | true =>
      -- What `null` accepts is `null`, which was accepted before the repair.
      rw [issues_eq_nil_iff_of_isNull hnull, Json.isNull_putAt_cons,
        ← issues_eq_nil_iff_of_isNull hnull] at hnone
      rw [anyAccepts_iff.mpr ⟨m, hm, hnone⟩] at rejected
      cases rejected
    | false =>
      have hmem : m ∈ members.filter (!·.isNull) := List.mem_filter.mpr ⟨hm, by rw [hnull]; rfl⟩
      rw [alone, List.mem_singleton] at hmem
      rw [← hmem, hnone]
  · rfl

/-- **One repair.** Where an issue is found, a value is put that is accepted there: the issue is
gone, and all others are found again. -/
theorem Finds.issues_putAt (h : t.Finds v issue) (ht : t.Addressable)
    (hs : t.Governs issue.place.keys s) (hw : s.issues w = []) :
    t.issues (v.putAt issue.place.keys w) = t.issuesApart v issue.place.keys := by
  induction h with
  | top place_eq alone => exact issues_putAt_of_top (.top place_eq alone) place_eq hs hw
  | item present _ ih => exact issues_putAt_item present (ih ht.items (governs_of_sequence hs))
  | @missing name fields f object member absent required =>
    obtain ⟨hnodup, -⟩ := ht.record
    obtain ⟨g, hg, hname, hgoverned⟩ := governs_of_record hs
    cases List.inj_on_of_nodup_map hnodup hg member hname
    have haccepted : f.shape.issues w = [] := hgoverned.issues_eq_nil hw
    have hfield : f.issuesIn (object.put f.name (((object.get? f.name).getD .null).putAt [] w)) =
        (f.issuesIn object).filter fun issue => issue.place.keys ≠ [f.name] := by
      rw [Json.putAt_nil, FieldShape.issuesIn_of_some (Fields.get?_put_self _ _ _), haccepted,
        FieldShape.issuesIn_of_none absent]
      simp [required, Step.key]
    exact issues_putAt_field hnodup member hfield
  | @field name fields f object v issue member present checked _ ih =>
    obtain ⟨hnodup, -⟩ := ht.record
    obtain ⟨g, hg, hname, hgoverned⟩ := governs_of_record hs
    cases List.inj_on_of_nodup_map hnodup hg member hname
    exact issues_putAt_field hnodup member
      (issuesIn_putAt present checked hgoverned hw (ih (ht.field member) hgoverned))
  | @only members only v issue rejected alone inner ih =>
    cases hplace : issue.place with
    | nil =>
      rw [← hplace]
      exact issues_putAt_of_top (.only rejected alone inner) hplace hs hw
    | cons step rest =>
      have hgoverned := governs_of_union alone (by rwa [hplace] at hs)
      have hinner := ih (ht.member (mem_of_filter_eq_singleton alone)) (by rwa [hplace])
      rw [hplace] at hinner
      exact issues_putAt_only rejected alone hinner

/-! ## No two issues tell of one place -/

theorem nodup_keys_under {found : List Issue} (step : Step)
    (h : (found.map fun issue => issue.place.keys).Nodup) :
    ((found.map (Issue.under [step])).map fun issue => issue.place.keys).Nodup := by
  have hmap : (found.map (Issue.under [step])).map (fun issue => issue.place.keys) =
      (found.map fun issue => issue.place.keys).map (step.key :: ·) := by
    rw [List.map_map, List.map_map]
    rfl
  rw [hmap]
  exact h.map fun _ _ => List.tail_eq_of_cons_eq

/-- Lists of issues below different keys tell of different places. -/
theorem nodup_keys_flatMap {α : Type} {parts : List α} {found : α → List Issue} (key : α → String)
    (hparts : ∀ a ∈ parts, ((found a).map fun issue => issue.place.keys).Nodup)
    (hkey : ∀ a ∈ parts, ∀ issue ∈ found a, ∃ rest, issue.place.keys = key a :: rest)
    (hapart : (parts.map key).Nodup) :
    ((parts.flatMap found).map fun issue => issue.place.keys).Nodup := by
  rw [List.map_flatMap, List.nodup_flatMap]
  refine ⟨hparts, (List.pairwise_map.mp hapart).imp_of_mem fun {a b} ha hb hne => ?_⟩
  intro keys hkeysa hkeysb
  obtain ⟨first, hfirst, rfl⟩ := List.mem_map.mp hkeysa
  obtain ⟨second, hsecond, heq⟩ := List.mem_map.mp hkeysb
  obtain ⟨_, hfirstKey⟩ := hkey a ha first hfirst
  obtain ⟨_, hsecondKey⟩ := hkey b hb second hsecond
  rw [hfirstKey, hsecondKey] at heq
  exact hne (List.head_eq_of_cons_eq heq).symm

theorem nodup_keys_of_top (h : ∀ issue, t.Finds v issue → issue.place = []) :
    ((t.issues v).map fun issue => issue.place.keys).Nodup := by
  cases hissues : t.issues v with
  | nil => exact List.nodup_nil
  | cons issue rest =>
    have hfound : t.Finds v issue := finds_of_mem_issues (by rw [hissues]; exact List.mem_cons_self)
    rw [← hissues, hfound.eq_singleton (h issue hfound)]
    exact List.nodup_singleton _

theorem nodup_keys_issuesIn {f : FieldShape} {object : Fields}
    (h : ∀ v, ((f.shape.issues v).map fun issue => issue.place.keys).Nodup) :
    ((f.issuesIn object).map fun issue => issue.place.keys).Nodup := by
  cases hget : Fields.get? object f.name with
  | none =>
    rw [FieldShape.issuesIn_of_none hget]
    split
    · exact List.nodup_singleton _
    · exact List.nodup_nil
  | some v =>
    rw [FieldShape.issuesIn_of_some hget]
    split
    · exact List.nodup_nil
    · exact nodup_keys_under _ (h v)

/-- **The issues of a value tell of different places.** -/
theorem nodup_keys_issues (ht : t.EachRecord fun r => r.fieldNames.Nodup) :
    ((t.issues v).map fun issue => issue.place.keys).Nodup := by
  induction t generalizing v with
  | unknown | scalar | literal | mapping =>
    refine nodup_keys_of_top fun issue hfound => ?_
    cases hfound
    assumption
  | sequence items ih =>
    cases v with
    | arr vs =>
      rw [issues_sequence_arr]
      refine nodup_keys_flatMap (fun p => (Step.item p.2).key)
        (fun p _ => nodup_keys_under _ (ih (eachRecord_sequence_iff.mp ht)))
        (fun p _ issue hissue => ?_) ?_
      · obtain ⟨inner, -, rfl⟩ := List.mem_map.mp hissue
        exact ⟨inner.place.keys, rfl⟩
      · have hindices : (vs.zipIdx.map Prod.snd).Nodup := by
          rw [List.zipIdx_map_snd]
          exact List.nodup_range'
        have hkeys := hindices.map (f := fun index => (Step.item index).key)
          fun _ _ => Place.key_item_inj
        rwa [List.map_map] at hkeys
    | _ =>
      refine nodup_keys_of_top fun issue hfound => ?_
      cases hfound
      assumption
  | record name fields ih =>
    cases v with
    | obj object =>
      obtain ⟨hfields, hnames⟩ := eachRecord_record_iff.mp ht
      rw [issues_record_obj]
      refine nodup_keys_flatMap FieldShape.name
        (fun f hf => nodup_keys_issuesIn fun _ => ih f hf (hfields f hf))
        (fun f _ issue hissue => ?_) hnames
      obtain ⟨rest, hplace⟩ := FieldShape.exists_place_of_mem_issuesIn hissue
      exact ⟨Place.keys rest, by rw [hplace]; rfl⟩
    | _ =>
      refine nodup_keys_of_top fun issue hfound => ?_
      cases hfound
      assumption
  | union members ih =>
    rw [issues_union]
    split
    · exact List.nodup_nil
    · split
      · next only alone =>
        have hmem := mem_of_filter_eq_singleton alone
        exact ih only hmem (eachRecord_union_iff.mp ht only hmem)
      · exact List.nodup_singleton _

end Shape

/-! ## Repairs along paths -/

/-- A value with another one at the path of each issue in a list. -/
def Json.repaired (v : Json) (repairs : List (Issue × Json)) : Json :=
  repairs.foldl (fun v repair => v.putAt (Place.segments repair.1.path) repair.2) v

/-- A repair that suits: what is put at the path of an issue is accepted by a shape that governs the
path. -/
def Shape.Suits (t : Shape) (repair : Issue × Json) : Prop :=
  ∃ s, t.Governs (Place.segments repair.1.path) s ∧ s.Accepts repair.2

section

variable {t : Shape} {v : Json} {issue : Issue} {repairs : List (Issue × Json)}

theorem segments_path_of_mem_issues (ht : t.Addressable) (h : issue ∈ t.issues v) :
    Place.segments issue.path = issue.place.keys :=
  Place.segments_path ((Shape.finds_of_mem_issues h).slash_not_mem ht)

theorem nodup_paths_issues (ht : t.Addressable) : ((t.issues v).map Issue.path).Nodup := by
  have hkeys : (t.issues v).map (fun issue => issue.place.keys) =
      ((t.issues v).map Issue.path).map Place.segments := by
    rw [List.map_map]
    exact List.map_congr_left fun issue h => (segments_path_of_mem_issues ht h).symm
  exact List.Nodup.of_map _ (hkeys ▸ Shape.nodup_keys_issues ht.nodup_fieldNames)

/-- One repair, with the place and the issue that goes told by their path. -/
theorem issues_putAt_path (ht : t.Addressable) {repair : Issue × Json}
    (hfound : repair.1 ∈ t.issues v) (hsuits : t.Suits repair) :
    t.issues (v.putAt (Place.segments repair.1.path) repair.2) =
      (t.issues v).filter fun issue => issue.path ≠ repair.1.path := by
  obtain ⟨s, hgoverned, haccepted⟩ := hsuits
  have hkeys := segments_path_of_mem_issues ht hfound
  rw [hkeys] at hgoverned ⊢
  rw [(Shape.finds_of_mem_issues hfound).issues_putAt ht hgoverned
    (Shape.issues_eq_nil_iff.mpr haccepted), Shape.issuesApart]
  refine List.filter_congr fun issue hissue => decide_eq_decide.mpr (not_congr ?_)
  constructor
  · intro hsame
    -- Among the issues of the value, the keys tell which one it is.
    rw [List.inj_on_of_nodup_map (Shape.nodup_keys_issues ht.nodup_fieldNames) hissue hfound hsame]
  · intro hsame
    rw [← hkeys, ← hsame, segments_path_of_mem_issues ht hissue]

theorem issues_foldl_putAt (ht : t.Addressable) (hfound : ∀ repair ∈ repairs, repair.1 ∈ t.issues v)
    (hsuits : ∀ repair ∈ repairs, t.Suits repair) (hdistinct : (repairs.map (·.1.path)).Nodup) :
    t.issues (v.repaired repairs) =
      (t.issues v).filter fun issue => issue.path ∉ repairs.map (·.1.path) := by
  induction repairs generalizing v with
  | nil => exact (List.filter_eq_self.mpr fun issue _ => by simp).symm
  | cons repair rest ih =>
    rw [List.forall_mem_cons] at hfound hsuits
    rw [List.map_cons, List.nodup_cons] at hdistinct
    have hone := issues_putAt_path ht hfound.1 hsuits.1
    -- The other issues to repair are still there.
    have hrest : ∀ other ∈ rest,
        other.1 ∈ t.issues (v.putAt (Place.segments repair.1.path) repair.2) := by
      intro other hother
      rw [hone, List.mem_filter]
      refine ⟨hfound.2 other hother, decide_eq_true fun hsame => hdistinct.1 ?_⟩
      rw [← hsame]
      exact List.mem_map_of_mem hother
    rw [Json.repaired, List.foldl_cons, ← Json.repaired, ih hrest hsuits.2 hdistinct.2, hone,
      List.filter_filter]
    refine List.filter_congr fun issue _ => ?_
    rw [List.map_cons, ← Bool.decide_and, decide_eq_decide, List.mem_cons, not_or, and_comm]

/-- **Repairs are independent.** In a value some issues are repaired, in any order: where each of
them is found, a value is put that suits. Then the check finds the other issues, in their order, and
nothing else. -/
theorem issues_repaired (ht : t.Addressable) (hfound : ∀ repair ∈ repairs, repair.1 ∈ t.issues v)
    (hsuits : ∀ repair ∈ repairs, t.Suits repair) (hdistinct : (repairs.map Prod.fst).Nodup) :
    ((t.issues v).map Issue.path).Nodup ∧
    (∀ issue ∈ t.issues v, ∃ s, t.Governs (Place.segments issue.path) s) ∧
    t.issues (v.repaired repairs) =
      (t.issues v).filter (fun issue => issue.path ∉ repairs.map (·.1.path)) ∧
    ((∀ issue ∈ t.issues v, issue ∈ repairs.map Prod.fst) → t.Accepts (v.repaired repairs)) := by
  have hpaths : (repairs.map (·.1.path)).Nodup := by
    have hmap := hdistinct.map_on (f := Issue.path) ?_
    · rwa [List.map_map] at hmap
    · intro issue hissue other hother hsame
      obtain ⟨repair, hrepair, rfl⟩ := List.mem_map.mp hissue
      obtain ⟨repair', hrepair', rfl⟩ := List.mem_map.mp hother
      exact List.inj_on_of_nodup_map (nodup_paths_issues ht) (hfound repair hrepair)
        (hfound repair' hrepair') hsame
  have hissues := issues_foldl_putAt ht hfound hsuits hpaths
  refine ⟨nodup_paths_issues ht, fun issue hissue => ?_, hissues, fun hall => ?_⟩
  · rw [segments_path_of_mem_issues ht hissue]
    exact (Shape.finds_of_mem_issues hissue).governed
  · rw [← Shape.issues_eq_nil_iff, hissues, List.filter_eq_nil_iff]
    intro issue hissue
    obtain ⟨repair, hrepair, hsame⟩ := List.mem_map.mp (hall issue hissue)
    have hmem : issue.path ∈ repairs.map (·.1.path) := hsame ▸ List.mem_map_of_mem hrepair
    simp [hmem]

end

/-- Arguments of a search: what is looked for, how many results are wanted, and tags. -/
def searchArguments : RecordShape :=
  ⟨"SearchArgs",
    [⟨"query", .string, true, ""⟩,
      ⟨"limit", .union [.scalar .integer, .null], false, ""⟩,
      ⟨"tags", .sequence .string, true, ""⟩]⟩

/-- A call with four things wrong: there is no query, and the limit and two tags are of other
kinds. -/
def searchCall : Json :=
  .obj [("limit", .str "ten"), ("tags", .arr [.str "new", .bool true, .null])]

/-- The query is added and one of the tags replaced, the tag first. -/
def searchRepairs : List (Issue × Json) :=
  [(⟨[.field "tags", .item 2], .wrongKind "string" .null⟩, .str "red"),
    (⟨[.field "query"], .missing⟩, .str "shoes")]

theorem issues_repaired_of_searchCall :
    (Shape.record searchArguments).issues (searchCall.repaired searchRepairs) =
      [⟨[.field "limit"], .wrongKind "integer" .string⟩,
        ⟨[.field "tags", .item 1], .wrongKind "string" .boolean⟩] := by
  have haddressable : (Shape.record searchArguments).Addressable := by
    intro r hr
    have hself : r = searchArguments := List.mem_singleton.mp hr
    subst hself
    decide
  have hfound : ∀ repair ∈ searchRepairs,
      repair.1 ∈ (Shape.record searchArguments).issues searchCall := by
    have hissues : (Shape.record searchArguments).issues searchCall =
        [⟨[.field "query"], .missing⟩, ⟨[.field "limit"], .wrongKind "integer" .string⟩,
          ⟨[.field "tags", .item 1], .wrongKind "string" .boolean⟩,
          ⟨[.field "tags", .item 2], .wrongKind "string" .null⟩] := by rfl
    rw [hissues]
    simp [searchRepairs]
  have hsuits : ∀ repair ∈ searchRepairs, (Shape.record searchArguments).Suits repair := by
    refine List.forall_mem_cons.mpr ⟨⟨.string, ?_, .scalar rfl⟩,
      List.forall_mem_singleton.mpr ⟨.string, ?_, .scalar rfl⟩⟩
    · have hsegments : Place.segments "/tags/2" = ["tags", (Step.item 2).key] := by decide
      have hmem : (⟨"tags", .sequence .string, true, ""⟩ : FieldShape) ∈ searchArguments.fields := by
        simp [searchArguments]
      exact hsegments ▸ .field hmem (.item 2 (.here _))
    · have hsegments : Place.segments "/query" = ["query"] := by decide
      have hmem : (⟨"query", .string, true, ""⟩ : FieldShape) ∈ searchArguments.fields := by
        simp [searchArguments]
      exact hsegments ▸ .field hmem (.here _)
  have hrest := (issues_repaired haddressable hfound hsuits (by simp [searchRepairs])).2.2.1
  rw [hrest]
  rfl

end ToolShape