import ToolShape.Check.Basic
import ToolShape.Proofs.Shape.Induction

/-!
# What the check decides

The check threads a list of issues and a place through the walk. This file separates the three: the
issues found are added at the end of those before (`Shape.check_eq_append`), the place stands before
each of theirs, and what remains, `Shape.issues`, has one equation for each constructor. So wherever a
value stands, checking it there finds what checking it alone finds, moved (`Issue.Moved`).

> **`s.issues v = [] ↔ s.Accepts v`**

`Shape.Accepts` says of each constructor which values it stands for and mentions neither issues nor
places. A union's own shortcut, which reports through its only member besides `null`, is where the
two definitions differ most; it never changes the verdict (`Shape.issues_union_eq_nil_iff`).
-/

set_option autoImplicit false

namespace ToolShape

/-! ## Acceptance -/

/-- Whether a scalar stands for a value. A number with a fraction of zero is an integer, and the
temporal scalars are strings that hold a point in time. -/
def Scalar.fits : Scalar → Json → Bool
  | .string, .str _ => true
  | .number, .num _ => true
  | .integer, .num n => n.isIntegral
  | .boolean, .bool _ => true
  | .null, .null => true
  | .date, .str text => Temporal.isDate text
  | .dateTime, .str text => Temporal.isInstant text
  | .time, .str text => Temporal.isTime text
  | _, _ => false

theorem Scalar.mismatch?_eq_none_iff {kind : Scalar} {v : Json} :
    kind.mismatch? v = none ↔ kind.fits v = true := by
  have hite : ∀ (b : Bool) (m : Mismatch), (if b then none else some m) = none ↔ b = true := by
    intro b m
    cases b <;> simp
  cases kind with
  | date | dateTime | time =>
    cases v with
    | str text => exact hite _ _
    | _ => simp [Scalar.mismatch?, Scalar.temporalMismatch?, Scalar.fits]
  | _ => exact (hite _ _).trans (by cases v <;> rfl)

/-- The values that a shape stands for. -/
inductive Shape.Accepts : Shape → Json → Prop where
  | unknown {v : Json} : Accepts .unknown v
  | scalar {kind : Scalar} {v : Json} (fits : kind.fits v = true) : Accepts (.scalar kind) v
  | literal {values : List String} {s : String} (listed : s ∈ values) :
    Accepts (.literal values) (.str s)
  | sequence {items : Shape} {vs : List Json} (all : ∀ v ∈ vs, Accepts items v) :
    Accepts (.sequence items) (.arr vs)
  | mapping {object : Json.Fields} : Accepts .mapping (.obj object)
  /-- A field may be absent when it is not required, and may then hold `null` as well. -/
  | record {name : String} {fields : List FieldShape} {object : Json.Fields}
    (absent : ∀ f ∈ fields, object.get? f.name = none → f.required = false)
    (present : ∀ f ∈ fields, ∀ v, object.get? f.name = some v →
      (v = .null → f.required = true) → Accepts f.shape v) :
    Accepts (.record ⟨name, fields⟩) (.obj object)
  | union {members : List Shape} {s : Shape} {v : Json} (mem : s ∈ members) (one : Accepts s v) :
    Accepts (.union members) v

/-- A field is satisfied by what an object holds under its name. -/
def FieldShape.SatisfiedBy (f : FieldShape) (object : Json.Fields) : Prop :=
  match object.get? f.name with
  | none => f.required = false
  | some v => (v = .null ∧ f.required = false) ∨ f.shape.Accepts v

namespace Shape

theorem accepts_scalar_iff {kind : Scalar} {v : Json} :
    (scalar kind).Accepts v ↔ kind.fits v = true :=
  ⟨fun | .scalar h => h, .scalar⟩

theorem accepts_literal_iff {values : List String} {v : Json} :
    (literal values).Accepts v ↔ ∃ s ∈ values, v = .str s := by
  constructor
  · rintro ⟨⟩
    exact ⟨_, ‹_›, rfl⟩
  · rintro ⟨s, hs, rfl⟩
    exact .literal hs

theorem accepts_sequence_iff {items : Shape} {v : Json} :
    (sequence items).Accepts v ↔ ∃ vs, v = .arr vs ∧ ∀ w ∈ vs, items.Accepts w := by
  constructor
  · rintro ⟨⟩
    exact ⟨_, rfl, ‹_›⟩
  · rintro ⟨vs, rfl, h⟩
    exact .sequence h

theorem accepts_mapping_iff {v : Json} : mapping.Accepts v ↔ ∃ object, v = .obj object := by
  constructor
  · rintro ⟨⟩
    exact ⟨_, rfl⟩
  · rintro ⟨object, rfl⟩
    exact .mapping

theorem accepts_record_iff {name : String} {fields : List FieldShape} {v : Json} :
    (record ⟨name, fields⟩).Accepts v ↔
      ∃ object, v = .obj object ∧ ∀ f ∈ fields, f.SatisfiedBy object := by
  constructor
  · rintro ⟨⟩
    rename_i object absent present
    refine ⟨object, rfl, fun f hf => ?_⟩
    unfold FieldShape.SatisfiedBy
    cases hv : object.get? f.name with
    | none => exact absent f hf hv
    | some v =>
      by_cases hnull : v = .null ∧ f.required = false
      · exact Or.inl hnull
      · exact Or.inr (present f hf v hv fun h => by simpa [h] using hnull)
  · rintro ⟨object, rfl, h⟩
    refine .record (fun f hf hv => ?_) fun f hf v hv hreq => ?_
    · simpa [FieldShape.SatisfiedBy, hv] using h f hf
    · have hsat := h f hf
      simp only [FieldShape.SatisfiedBy, hv] at hsat
      rcases hsat with ⟨hnull, hopt⟩ | hacc
      · rw [hreq hnull] at hopt
        cases hopt
      · exact hacc

theorem accepts_union_iff {members : List Shape} {v : Json} :
    (union members).Accepts v ↔ ∃ s ∈ members, s.Accepts v := by
  constructor
  · rintro ⟨⟩
    exact ⟨_, ‹_›, ‹_›⟩
  · rintro ⟨s, hs, h⟩
    exact .union hs h

end Shape

/-! ## The check, constructor by constructor

Later proofs rewrite with these equations and do not unfold `Shape.check`. -/

namespace Shape

variable (v : Json) (place : Place) (found : List Issue)

theorem check_unknown : unknown.check v place found = found := rfl

theorem check_scalar (kind : Scalar) :
    (scalar kind).check v place found =
      match kind.mismatch? v with
      | none => found
      | some mismatch => found ++ [⟨place, mismatch⟩] := rfl

theorem check_literal (values : List String) :
    (literal values).check v place found =
      if isListed values v then found else found ++ [⟨place, .notListed values v⟩] := rfl

theorem check_mapping :
    mapping.check v place found =
      match v with
      | .obj _ => found
      | v => found ++ [⟨place, .wrongKind "object" v.kind⟩] := rfl

theorem check_sequence (items : Shape) :
    (sequence items).check v place found =
      match v with
      | .arr elements => checkItems items.check place 0 elements found
      | v => found ++ [⟨place, .wrongKind "array" v.kind⟩] := rfl

theorem check_record (name : String) (fields : List FieldShape) :
    (record ⟨name, fields⟩).check v place found =
      match v with
      | .obj object => FieldShape.checkAll fields object place found
      | v => found ++ [⟨place, .wrongKind "object" v.kind⟩] := by
  cases v <;> rfl

theorem check_union (members : List Shape) :
    (union members).check v place found =
      if anyAccepts members v place then found
      else if (members.filter (!·.isNull)).length == 1 then checkFirst members v place found
      else found ++ [⟨place, .wrongKind (union members).text v.kind⟩] := rfl

end Shape

/-! ## The check, with its accumulator and its place taken out -/

/-- An issue seen from further out: its place continues another. -/
def Issue.under (place : Place) (issue : Issue) : Issue := ⟨place ++ issue.place, issue.mismatch⟩

@[simp] theorem Issue.under_nil (issue : Issue) : issue.under [] = issue := rfl

@[simp] theorem Issue.map_under_nil (issues : List Issue) :
    issues.map (Issue.under []) = issues :=
  List.map_id issues

@[simp] theorem Issue.under_mk (outer place : Place) (mismatch : Mismatch) :
    Issue.under outer ⟨place, mismatch⟩ = ⟨outer ++ place, mismatch⟩ := rfl

@[simp] theorem Issue.under_under (outer inner : Place) (issue : Issue) :
    (issue.under inner).under outer = issue.under (outer ++ inner) := by
  simp [Issue.under]

theorem Issue.map_under_under (outer inner : Place) (issues : List Issue) :
    (issues.map (Issue.under inner)).map (Issue.under outer) =
      issues.map (Issue.under (outer ++ inner)) := by
  simp [Issue.under_under]

/-- The check of a shape adds at the end and only labels with its place. -/
def Shape.Appends (s : Shape) : Prop :=
  ∀ v place found, s.check v place found = found ++ (s.issues v).map (Issue.under place)

theorem checkItems_eq_append {items : Shape} (h : items.Appends) (place : Place) (vs : List Json) :
    ∀ index found, checkItems items.check place index vs found =
      found ++ (vs.zipIdx index).flatMap fun p =>
        (items.issues p.1).map (Issue.under (place ++ [.item p.2])) := by
  induction vs with
  | nil => simp [checkItems]
  | cons v rest ih =>
    intro index found
    rw [checkItems, ih, h]
    simp

/-- The issues of what an object holds under a field's name. -/
def FieldShape.issuesIn (f : FieldShape) (object : Json.Fields) : List Issue :=
  match object.get? f.name with
  | none => if f.required then [⟨[.field f.name], .missing⟩] else []
  | some .null =>
    if f.required then (f.shape.issues .null).map (Issue.under [.field f.name]) else []
  | some v => (f.shape.issues v).map (Issue.under [.field f.name])

namespace FieldShape

variable {f : FieldShape} {object : Json.Fields}

theorem issuesIn_of_none (h : object.get? f.name = none) :
    f.issuesIn object = if f.required then [⟨[.field f.name], .missing⟩] else [] := by
  rw [issuesIn, h]

theorem issuesIn_of_some {v : Json} (h : object.get? f.name = some v) :
    f.issuesIn object =
      if v.isNull && !f.required then [] else (f.shape.issues v).map (Issue.under [.field f.name]) := by
  rw [issuesIn, h]
  cases v <;> cases f.required <;> rfl

/-- The issues of a field are found under its name. -/
theorem exists_place_of_mem_issuesIn {issue : Issue} (h : issue ∈ f.issuesIn object) :
    ∃ rest, issue.place = .field f.name :: rest := by
  cases hget : object.get? f.name with
  | none =>
    rw [issuesIn_of_none hget] at h
    split at h
    · rw [List.mem_singleton.mp h]
      exact ⟨[], rfl⟩
    · cases h
  | some v =>
    rw [issuesIn_of_some hget] at h
    split at h
    · cases h
    · obtain ⟨inner, -, rfl⟩ := List.mem_map.mp h
      exact ⟨inner.place, rfl⟩

end FieldShape

theorem FieldShape.checkAll_eq_append {fields : List FieldShape}
    (h : ∀ f ∈ fields, f.shape.Appends) (object : Json.Fields) (place : Place) :
    ∀ found, FieldShape.checkAll fields object place found =
      found ++ (fields.flatMap (·.issuesIn object)).map (Issue.under place) := by
  induction fields with
  | nil => simp [FieldShape.checkAll]
  | cons f rest ih =>
    intro found
    have hf : f.shape.Appends := h f List.mem_cons_self
    obtain ⟨name, shape, required, description⟩ := f
    rw [FieldShape.checkAll, ih fun g hg => h g (List.mem_cons_of_mem _ hg), List.flatMap_cons,
      List.map_append, ← List.append_assoc]
    congr 1
    unfold FieldShape.issuesIn
    -- The cases of the check itself: nothing under the name, `null`, or any other value.
    cases hv : object.get? name with
    | none => cases required <;> simp
    | some v => cases v <;> cases required <;> simp [hf _ _ _]

theorem Shape.checkFirst_eq (members : List Shape) (v : Json) (place : Place) (found : List Issue) :
    Shape.checkFirst members v place found =
      ((members.find? (!·.isNull)).map fun s => s.check v place found).getD found := by
  induction members with
  | nil => rfl
  | cons s rest ih => cases hs : s.isNull <;> simp [Shape.checkFirst, hs, ih]

/-- Where members are tried makes no difference, if they only label with their place. -/
theorem Shape.anyAccepts_iff_of_appends {members : List Shape} (h : ∀ s ∈ members, s.Appends)
    {v : Json} {place : Place} :
    Shape.anyAccepts members v place = true ↔ ∃ s ∈ members, s.issues v = [] := by
  induction members with
  | nil => simp [Shape.anyAccepts]
  | cons s rest ih =>
    have hs : (s.check v place []).isEmpty = true ↔ s.issues v = [] := by
      rw [h s List.mem_cons_self, List.nil_append, List.isEmpty_iff, List.map_eq_nil_iff]
    rw [Shape.anyAccepts, Bool.or_eq_true, hs, ih fun t ht => h t (List.mem_cons_of_mem s ht)]
    simp

/-- **The check adds the issues of a value to those before, each with its place in front.** -/
theorem Shape.check_eq_append (s : Shape) : s.Appends := by
  induction s with
  | unknown => intro v place found; simp [Shape.check_unknown, Shape.issues]
  | scalar kind =>
    intro v place found
    simp only [Shape.issues, Shape.check_scalar]
    cases kind.mismatch? v <;> simp
  | literal values =>
    intro v place found
    simp only [Shape.issues, Shape.check_literal]
    split <;> simp
  | mapping =>
    intro v place found
    cases v <;> simp [Shape.check_mapping, Shape.issues]
  | sequence items ih =>
    intro v place found
    cases v with
    | arr vs =>
      simp only [Shape.issues, Shape.check_sequence, checkItems_eq_append ih, List.map_flatMap,
        List.nil_append]
      simp only [Issue.map_under_under]
    | _ => simp [Shape.check_sequence, Shape.issues]
  | record name fields ih =>
    intro v place found
    cases v with
    | obj object =>
      simp only [Shape.issues, Shape.check_record, FieldShape.checkAll_eq_append ih]
      simp
    | _ => simp [Shape.check_record, Shape.issues]
  | union members ih =>
    intro v place found
    -- The members are tried at the place, and decide there as they do at the top.
    have hany : Shape.anyAccepts members v [] = Shape.anyAccepts members v place := by
      rw [Bool.eq_iff_iff, Shape.anyAccepts_iff_of_appends ih, Shape.anyAccepts_iff_of_appends ih]
    simp only [Shape.issues, Shape.check_union, hany]
    split
    · simp
    · split
      · rw [Shape.checkFirst_eq, Shape.checkFirst_eq]
        cases hfirst : members.find? (!·.isNull) with
        | none => simp
        | some s =>
          have hs : s.Appends := ih s (List.mem_of_find?_eq_some hfirst)
          simp [hs v place found, Shape.issues]
      · simp

/-! ## The issues of a value, constructor by constructor -/

namespace Shape

theorem anyAccepts_iff {members : List Shape} {v : Json} {place : Place} :
    anyAccepts members v place = true ↔ ∃ s ∈ members, s.issues v = [] :=
  anyAccepts_iff_of_appends fun s _ => s.check_eq_append

@[simp] theorem issues_unknown (v : Json) : unknown.issues v = [] := by
  rw [issues, check_unknown]

theorem issues_scalar_eq_nil_iff {kind : Scalar} {v : Json} :
    (scalar kind).issues v = [] ↔ kind.fits v = true := by
  rw [← Scalar.mismatch?_eq_none_iff, issues, check_scalar]
  cases kind.mismatch? v <;> simp

theorem issues_literal_eq_nil_iff {values : List String} {v : Json} :
    (literal values).issues v = [] ↔ ∃ s ∈ values, v = .str s := by
  rw [issues, check_literal]
  cases v <;> simp [isListed]

theorem issues_mapping_eq_nil_iff {v : Json} :
    mapping.issues v = [] ↔ ∃ object, v = .obj object := by
  cases v <;> simp [issues, check_mapping]

theorem issues_sequence_arr (items : Shape) (vs : List Json) :
    (sequence items).issues (.arr vs) =
      vs.zipIdx.flatMap fun p => (items.issues p.1).map (Issue.under [.item p.2]) := by
  rw [issues, check_sequence]
  dsimp only
  rw [checkItems_eq_append items.check_eq_append]
  rfl

theorem issues_record_obj (name : String) (fields : List FieldShape) (object : Json.Fields) :
    (record ⟨name, fields⟩).issues (.obj object) = fields.flatMap (·.issuesIn object) := by
  rw [issues, check_record]
  dsimp only
  rw [FieldShape.checkAll_eq_append fun f _ => f.shape.check_eq_append, Issue.map_under_nil,
    List.nil_append]

theorem mem_of_filter_eq_singleton {members : List Shape} {p : Shape → Bool} {only : Shape}
    (h : members.filter p = [only]) : only ∈ members := by
  have hmem : only ∈ members.filter p := h ▸ List.mem_singleton_self only
  exact (List.mem_filter.mp hmem).1

/-- A union that accepts through no member reports through the only one besides `null`, if there is
just one. -/
theorem issues_union (members : List Shape) (v : Json) :
    (union members).issues v =
      if anyAccepts members v [] then []
      else match members.filter (!·.isNull) with
        | [only] => only.issues v
        | _ => [⟨[], .wrongKind (union members).text v.kind⟩] := by
  rw [issues, check_union]
  split
  · rfl
  · rw [checkFirst_eq, ← List.head?_filter]
    -- One member is left, or the filter gives none or several.
    generalize members.filter (!·.isNull) = others
    match others with
    | [] => rfl
    | [only] => rfl
    | _ :: _ :: _ => simp

theorem issues_union_eq_nil_iff {members : List Shape} {v : Json} :
    (union members).issues v = [] ↔ ∃ s ∈ members, s.issues v = [] := by
  rw [issues_union, ← @anyAccepts_iff members v []]
  split
  · simp [*]
  · next hnone =>
    simp only [hnone]
    split
    · next only honly =>
      have hmem : only ∈ members := mem_of_filter_eq_singleton honly
      -- The only member has been tried, so what it reports is not nothing.
      constructor
      · intro h
        exact absurd (anyAccepts_iff.mpr ⟨only, hmem, h⟩) hnone
      · intro h
        cases h
    · simp

end Shape

theorem FieldShape.issuesIn_eq_nil_iff {f : FieldShape} {object : Json.Fields}
    (h : ∀ v, f.shape.issues v = [] ↔ f.shape.Accepts v) :
    f.issuesIn object = [] ↔ f.SatisfiedBy object := by
  unfold FieldShape.issuesIn FieldShape.SatisfiedBy
  cases object.get? f.name with
  | none => simp
  | some v => cases v <;> cases f.required <;> simp [h]

/-- **No issue is found exactly when the value is accepted.** -/
theorem Shape.issues_eq_nil_iff {s : Shape} {v : Json} : s.issues v = [] ↔ s.Accepts v := by
  induction s generalizing v with
  | unknown => simp [Shape.Accepts.unknown]
  | scalar kind => rw [Shape.issues_scalar_eq_nil_iff, Shape.accepts_scalar_iff]
  | literal values => rw [Shape.issues_literal_eq_nil_iff, Shape.accepts_literal_iff]
  | mapping => rw [Shape.issues_mapping_eq_nil_iff, Shape.accepts_mapping_iff]
  | sequence items ih =>
    rw [Shape.accepts_sequence_iff]
    cases v with
    | arr vs =>
      rw [Shape.issues_sequence_arr, List.flatMap_eq_nil_iff]
      simp only [List.map_eq_nil_iff, ih, Json.arr.injEq, exists_eq_left']
      constructor
      · intro h w hw
        obtain ⟨i, hi, rfl⟩ := List.mem_iff_getElem.mp hw
        exact h (vs[i], i) (by simp [List.mem_zipIdx_iff_getElem?])
      · rintro h ⟨w, i⟩ hp
        exact h w (List.fst_mem_of_mem_zipIdx hp)
    | _ => simp [Shape.issues, Shape.check_sequence]
  | record name fields ih =>
    rw [Shape.accepts_record_iff]
    cases v with
    | obj object =>
      rw [Shape.issues_record_obj, List.flatMap_eq_nil_iff]
      simp only [Json.obj.injEq, exists_eq_left']
      exact forall₂_congr fun f hf => FieldShape.issuesIn_eq_nil_iff fun _ => ih f hf
    | _ => simp [Shape.issues, Shape.check_record]
  | union members ih =>
    rw [Shape.issues_union_eq_nil_iff, Shape.accepts_union_iff]
    exact exists_congr fun s => and_congr_right fun hs => ih s hs

/-- A record finds the issues that it finds as a shape. -/
theorem RecordShape.issues_eq (r : RecordShape) (v : Json) :
    r.issues v = (Shape.record r).issues v := by
  rfl

/-! ## The check, run anywhere

A place is what the check is given to go on from. Written as a path, it is any text that is empty or
starts with a slash. -/

theorem Place.path_append (outer inner : Place) :
    path (outer ++ inner) = outer.path ++ inner.path := by
  rw [path, List.map_append, String.join_append]
  rfl

theorem Place.exists_path_eq_iff {text : String} :
    (∃ place : Place, place.path = text) ↔ text = "" ∨ ∃ rest, text = "/" ++ rest := by
  constructor
  · rintro ⟨_ | ⟨step, rest⟩, rfl⟩
    · exact Or.inl rfl
    · have hpath : path (step :: rest) = stepText step ++ path rest := path_append [step] rest
      rw [hpath]
      cases step with
      | field name => exact Or.inr ⟨name ++ path rest, String.append_assoc⟩
      | item index => exact Or.inr ⟨toString index ++ path rest, String.append_assoc⟩
  · rintro (rfl | ⟨rest, rfl⟩)
    · exact ⟨[], rfl⟩
    · exact ⟨[.field rest], String.empty_append⟩

/-- An issue that is another one, moved: its path goes on from that of a place, and its message is
the same. -/
structure Issue.Moved (place : Place) (issue original : Issue) : Prop where
  place_eq : issue.place = place ++ original.place
  path_eq : issue.path = place.path ++ original.path
  message_eq : issue.message = original.message

theorem Issue.moved_under (place : Place) (issue : Issue) : Moved place (issue.under place) issue :=
  ⟨rfl, Place.path_append place issue.place, rfl⟩

/-- **The check can be run anywhere, and decides acceptance.** What was found before stays in front.
What is added are the issues of the value on its own, moved to the place, and nothing is added
exactly when the value is accepted. -/
theorem Shape.check_relocatable (s : Shape) (v : Json) (place : Place) (found : List Issue) :
    ∃ added : List Issue, s.check v place found = found ++ added ∧
      List.Forall₂ (Issue.Moved place) added (s.check v [] []) ∧
      (added = [] ↔ s.Accepts v) := by
  refine ⟨(s.issues v).map (Issue.under place), s.check_eq_append v place found, ?_, ?_⟩
  · rw [List.forall₂_map_left_iff]
    exact List.forall₂_same.mpr fun issue _ => Issue.moved_under place issue
  · rw [List.map_eq_nil_iff, Shape.issues_eq_nil_iff]

/-! ## Null -/

namespace Shape

theorem accepts_null_iff {v : Json} : null.Accepts v ↔ v = .null := by
  rw [accepts_scalar_iff]
  cases v <;> simp [Scalar.fits]

theorem anyAcceptsNull_eq_any (ms : List Shape) : anyAcceptsNull ms = ms.any acceptsNull := by
  induction ms with
  | nil => rfl
  | cons s rest ih => rw [anyAcceptsNull, ih, List.any_cons]

/-- The flag for `null` says whether `null` is accepted. -/
theorem acceptsNull_iff {s : Shape} : s.acceptsNull = true ↔ s.Accepts .null := by
  induction s with
  | unknown => simp [acceptsNull, Accepts.unknown]
  | scalar kind =>
    rw [accepts_scalar_iff]
    cases kind <;> simp [acceptsNull, Scalar.fits]
  | literal values => simp [acceptsNull, accepts_literal_iff]
  | sequence items ih => simp [acceptsNull, accepts_sequence_iff]
  | mapping => simp [acceptsNull, accepts_mapping_iff]
  | record name fields ih => simp [acceptsNull, accepts_record_iff]
  | union ms ih =>
    rw [acceptsNull, anyAcceptsNull_eq_any, List.any_eq_true, accepts_union_iff]
    exact exists_congr fun s => and_congr_right fun hs => ih s hs

end Shape

end ToolShape
