import ToolShape.Proofs.Schema.Form

/-!
# Reading a schema against a value

`Schema.Admits limit depth node v` says whether a node at a depth admits a value, straight from the
node's keywords. It builds no shape and draws no names; below the limit it admits everything.

The rules stand in the order in which a node is classified, and each has its own definition where it
says more than a line: `FitsType` for a single `type`, `FitsEnum`, `Satisfies` for properties with
required names, `AdmitsSome` for alternatives. The rest of the file proves, rule by rule, that the
shape known at once for a node accepts what the rule admits.
-/

set_option autoImplicit false

namespace ToolShape.Schema

open Json (Fields)

/-! ## The rules -/

/-- A value is of the scalar that a `type` names. A `type` that names none asks nothing. -/
def FitsType (type : Option Json) (v : Json) : Prop :=
  match type with
  | some (.str name) => ∀ kind, scalar? name = some kind → kind.fits v = true
  | _ => True

/-- What an `enum` asks. One that is empty or no list asks for a string; one of `null` alone, for
`null`; one of strings, with or without `null`, for one of its values; and any other leaves it to
the `type`, which is `string` unless it is given. -/
def FitsEnum (schema : Fields) (v : Json) : Prop :=
  match schema.get? "enum" with
  | some (.arr (first :: rest)) =>
    let values := first :: rest
    if values.all Json.isNull then v = .null
    else if values.all fun w => w.isNull || w.asString?.isSome then
      (∃ s, v = .str s ∧ .str s ∈ values) ∨ (v = .null ∧ .null ∈ values)
    else FitsType (some ((schema.get? "type").getD (.str "string"))) v
  | _ => ∃ s, v = .str s

/-- What one entry of a `type` list asks. -/
def FitsEntry (type : Json) (v : Json) : Prop :=
  if type.asString? = some "array" then ∃ vs, v = .arr vs
  else if type.asString? = some "object" then ∃ object, v = .obj object
  else FitsType (some type) v

/-- What a `format` of a string asks: only dates and times are told apart. -/
def FitsFormat (format : Option Json) (v : Json) : Prop :=
  ∃ text, v = .str text ∧
    (format = some (.str "date") → Temporal.isDate text = true) ∧
    (format = some (.str "date-time") → Temporal.isInstant text = true) ∧
    (format = some (.str "time") → Temporal.isTime text = true)

/-- What an object holds under a name is admitted: nothing, or `null`, unless the name is required,
and otherwise a value that the name's schema admits. -/
def Holds (admits : Json → Json → Prop) (required : List String) (object : Fields) (name : String)
    (schema : Json) : Prop :=
  match object.get? name with
  | none => name ∉ required
  | some v => (v = .null ∧ name ∉ required) ∨ admits schema v

/-- A value is an object that holds what it should under each declared name. Of several schemas
declared for one name the first counts, and other names mean nothing. -/
def Satisfies (admits : Json → Json → Prop) (declared : Fields) (required : List String)
    (v : Json) : Prop :=
  ∃ object, v = .obj object ∧
    ∀ name schema, declared.get? name = some schema → Holds admits required object name schema

/-- Some node of a list admits a value, a pinned one any string; no nodes admit everything. -/
def AdmitsSome (admits : Json → Json → Prop) (nodes : List Json) (v : Json) : Prop :=
  nodes = [] ∨ ∃ node ∈ nodes, if isPinned node then ∃ s, v = .str s else admits node v

/-- The list under a key; there is none under a key that is absent or holds something else. -/
def listUnder (schema : Fields) (key : String) : List Json :=
  ((schema.get? key).bind Json.asArray?).getD []

/-- What a list asks: its items count when their schema says something. -/
def ListAdmits (admits : Json → Json → Prop) (schema : Fields) (v : Json) : Prop :=
  match schema.get? "items" with
  | some (.obj (field :: rest)) => ∃ vs, v = .arr vs ∧ ∀ w ∈ vs, admits (.obj (field :: rest)) w
  | _ => ∃ vs, v = .arr vs

/-- What an object asks, of which the last schema declared for a name counts. -/
def ObjectAdmits (admits : Json → Json → Prop) (schema : Fields) (v : Json) : Prop :=
  let declared : Fields := (properties (.obj schema)).reverse
  if declared.isEmpty then ∃ object, v = .obj object
  else Satisfies admits declared (requiredNames (schema.get? "required")) v

/-- What a node classified by its `type` asks. -/
def TypeAdmits (admits : Json → Json → Prop) (schema : Fields) (v : Json) : Prop :=
  match schema.get? "type" with
  | some (.arr types) => types = [] ∨ ∃ type ∈ types, FitsEntry type v
  | some (.str name) =>
    if name = "array" then ListAdmits admits schema v
    else if name = "object" then ObjectAdmits admits schema v
    else if name = "string" && schema.has "format" then FitsFormat (schema.get? "format") v
    else FitsType (some (.str name)) v
  | type => FitsType type v

/-- What an `allOf` asks: an object with the properties of all branches, or, if they declare none,
what the last `type` says. -/
def MergeAdmits (admits : Json → Json → Prop) (schema : Fields) (v : Json) : Prop :=
  let parts := branches schema
  if (declarations parts).isEmpty then
    if (lastType? parts).bind Json.asString? = some "array" then ∃ vs, v = .arr vs
    else ∃ object, v = .obj object
  else Satisfies admits (declarations parts) (mergedRequired parts) v

/-- What a node asks, given what the nodes in it admit. The first keyword present decides. -/
def NodeAdmits (admits : Json → Json → Prop) : (node v : Json) → Prop
  | .obj fields, v =>
    let schema : Fields := fields
    if schema.isEmpty || schema.has "$ref" then True
    else if schema.has "enum" then FitsEnum schema v
    else if schema.has "allOf" then MergeAdmits admits schema v
    else if schema.has "anyOf" then AdmitsSome admits (listUnder schema "anyOf") v
    else if schema.has "oneOf" then AdmitsSome admits (listUnder schema "oneOf") v
    else TypeAdmits admits schema v
  | _, _ => True

/-- **Whether a node at a depth admits a value.** Beyond the limit everything is admitted; the nodes
in a node stand one level deeper. -/
def Admits (limit depth : Nat) (node v : Json) : Prop :=
  if limit < depth then True
  else NodeAdmits (fun inner w => Admits limit (depth + 1) inner w) node v
termination_by limit + 1 - depth

theorem admits_of_lt {limit depth : Nat} (h : limit < depth) (node v : Json) :
    Admits limit depth node v := by
  rw [Admits, if_pos h]
  trivial

theorem admits_iff_nodeAdmits {limit depth : Nat} (h : depth ≤ limit) (node v : Json) :
    Admits limit depth node v ↔ NodeAdmits (Admits limit (depth + 1)) node v := by
  rw [Admits, if_neg (Nat.not_lt.mpr h)]

/-! ## Shapes known at once -/

theorem accepts_string_iff {v : Json} : Shape.string.Accepts v ↔ ∃ s, v = .str s := by
  rw [Shape.accepts_scalar_iff]
  cases v <;> simp [Scalar.fits]

theorem accepts_untypedSequence_iff {v : Json} :
    Shape.untypedSequence.Accepts v ↔ ∃ vs, v = .arr vs := by
  rw [Shape.accepts_sequence_iff]
  exact exists_congr fun vs => and_iff_left fun _ _ => .unknown

theorem accepts_simple_iff {type : Option Json} {v : Json} :
    (simple type).Accepts v ↔ FitsType type v := by
  unfold simple FitsType
  cases type with
  | none => simp [Shape.Accepts.unknown]
  | some type =>
    cases type with
    | str name =>
      cases hkind : scalar? name with
      | none => simp [Json.asString?, hkind, Shape.Accepts.unknown]
      | some kind => simp [Json.asString?, hkind, Shape.accepts_scalar_iff]
    | _ => simp [Json.asString?, Shape.Accepts.unknown]

theorem fitsType_of_asString?_eq_none {type : Json} (h : type.asString? = none) (v : Json) :
    FitsType (some type) v := by
  cases type with
  | str name => cases h
  | _ => trivial

theorem accepts_typeEntry_iff {type v : Json} : (typeEntry type).Accepts v ↔ FitsEntry type v := by
  unfold typeEntry FitsEntry
  cases htype : type.asString? with
  | none => simp [Shape.Accepts.unknown, fitsType_of_asString?_eq_none htype v]
  | some name =>
    by_cases harray : name = "array"
    · simp [harray, accepts_untypedSequence_iff]
    · by_cases hobject : name = "object"
      · simp [hobject, Shape.accepts_mapping_iff]
      · simp [harray, hobject, accepts_simple_iff]

theorem typeEntry_members_ne_nil (type : Json) : (typeEntry type).members ≠ [] := by
  unfold typeEntry simple
  repeat' split
  all_goals exact List.cons_ne_nil _ _

theorem accepts_typeList_iff {types : List Json} {v : Json} :
    (typeList types).Accepts v ↔ types = [] ∨ ∃ type ∈ types, FitsEntry type v := by
  have hnil : (types.map typeEntry).flatMap Shape.members = [] ↔ types = [] := by
    cases types with
    | nil => simp
    | cons type rest => simp [typeEntry_members_ne_nil]
  rw [typeList, Shape.accepts_unionOf_iff, hnil]
  simp [accepts_typeEntry_iff]

theorem accepts_formatted_iff {format : Option Json} {v : Json} :
    (formatted format).Accepts v ↔ FitsFormat format v := by
  unfold formatted FitsFormat
  cases hformat : format.bind Json.asString? with
  | none =>
    have hnot : ∀ name, format ≠ some (.str name) := by
      rintro name rfl
      cases hformat
    simp [accepts_string_iff, hnot]
  | some name =>
    have hname : format = some (.str name) := by
      obtain ⟨w, rfl, hw⟩ := Option.bind_eq_some_iff.mp hformat
      cases w <;> simp_all [Json.asString?]
    subst hname
    simp only [Shape.accepts_scalar_iff, formattedScalar, Option.some.injEq, Json.str.injEq]
    -- The three names that are told apart, and any other.
    by_cases hdate : name = "date"
    · subst hdate
      cases v <;> simp [Scalar.fits]
    · by_cases hinstant : name = "date-time"
      · subst hinstant
        cases v <;> simp [Scalar.fits]
      · by_cases htime : name = "time"
        · subst htime
          cases v <;> simp [Scalar.fits]
        · cases v <;> simp [Scalar.fits, hdate, hinstant, htime]

/-! ## `enum` -/

theorem accepts_literalOf_iff {values : List String} {v : Json} :
    (Shape.literalOf values).Accepts v ↔ ∃ s ∈ values, v = .str s := by
  rw [Shape.literalOf, Shape.accepts_literal_iff]
  simp only [List.mem_eraseDups]

theorem isNull_iff {v : Json} : v.isNull = true ↔ v = .null := by
  cases v <;> simp [Json.isNull]

/-- Values besides `null` are read as strings exactly when they are all strings. -/
theorem isSome_allStrings? (values : List Json) :
    (allStrings? (values.filter (!·.isNull))).isSome =
      values.all fun w => w.isNull || w.asString?.isSome := by
  induction values with
  | nil => rfl
  | cons w rest ih =>
    rw [List.all_cons, ← ih]
    cases w with
    | str s =>
      show (allStrings? (.str s :: rest.filter (!·.isNull))).isSome = _
      cases hrest : allStrings? (rest.filter (!·.isNull)) <;>
        simp [allStrings?, Json.asString?, hrest]
    | _ => rfl

/-- A string is listed exactly when it is among the values read as strings. -/
theorem str_mem_iff_of_allStrings? {values : List Json} {strings : List String}
    (h : allStrings? (values.filter (!·.isNull)) = some strings) (s : String) :
    .str s ∈ values ↔ s ∈ strings := by
  rw [allStrings?_eq_some_iff] at h
  calc Json.str s ∈ values
      ↔ Json.str s ∈ values.filter (!·.isNull) := by simp [Json.isNull]
    _ ↔ Json.str s ∈ strings.map Json.str := by rw [h]
    _ ↔ s ∈ strings := by simp

/-- Fewer values are left without `null` exactly when `null` is listed. -/
theorem length_filter_lt_iff_null_mem {values : List Json} :
    (values.filter (!·.isNull)).length < values.length ↔ Json.null ∈ values := by
  rw [List.length_filter_lt_length_iff_exists]
  simp [isNull_iff]

theorem accepts_enumOf_iff {values : List Json} {type : Option Json} {v : Json}
    (hne : values ≠ []) :
    (enumOf values type).Accepts v ↔
      if values.all Json.isNull then v = .null
      else if values.all fun w => w.isNull || w.asString?.isSome then
        (∃ s, v = .str s ∧ .str s ∈ values) ∨ (v = .null ∧ .null ∈ values)
      else FitsType (some (type.getD (.str "string"))) v := by
  have hproper : (values.filter (!·.isNull)).isEmpty = values.all Json.isNull := by
    rw [Bool.eq_iff_iff]
    simp
  unfold enumOf
  simp only [List.isEmpty_eq_false_iff.mpr hne, hproper, Bool.false_eq_true, if_false,
    ← isSome_allStrings?]
  split
  · exact Shape.accepts_null_iff
  · cases hstrings : allStrings? (values.filter (!·.isNull)) with
    | none => exact accepts_simple_iff
    | some strings =>
      have hlisted : (∃ s ∈ strings, v = .str s) ↔ ∃ s, v = .str s ∧ .str s ∈ values := by
        simp only [str_mem_iff_of_allStrings? hstrings, and_comm]
      dsimp only [Option.isSome_some]
      rw [if_pos rfl]
      -- `null` is listed exactly when dropping it leaves fewer values.
      by_cases hnull : Json.null ∈ values
      · rw [if_pos (length_filter_lt_iff_null_mem.mpr hnull), Shape.accepts_nullable_iff,
          accepts_literalOf_iff, hlisted, or_comm]
        exact or_congr_right (and_iff_left hnull).symm
      · rw [if_neg fun h => hnull (length_filter_lt_iff_null_mem.mp h), accepts_literalOf_iff,
          hlisted]
        exact (or_iff_left fun h => hnull h.2).symm

theorem accepts_enumShape_iff {schema : Fields} {v : Json} :
    (enumShape schema).Accepts v ↔ FitsEnum schema v := by
  unfold enumShape FitsEnum
  cases henum : schema.get? "enum" with
  | none => simp [accepts_string_iff]
  | some e =>
    cases e with
    | arr values =>
      cases values with
      | nil => simp [Json.asArray?, enumOf, accepts_string_iff]
      | cons first rest => exact accepts_enumOf_iff (List.cons_ne_nil first rest)
    | _ => simp [Json.asArray?, accepts_string_iff]

/-! ## Nodes made of further nodes -/

/-- What a form asks, given what the nodes in it admit. -/
def Form.Admits (admits : Json → Json → Prop) : Form → Json → Prop
  | .leaf shape, v => shape.Accepts v
  | .list items, v => ∃ vs, v = .arr vs ∧ ∀ w ∈ vs, admits items w
  | .record properties required, v =>
    ∃ object, v = .obj object ∧ ∀ p ∈ properties, Holds admits required object p.1 p.2
  | .alternatives nodes, v => AdmitsSome admits nodes v

variable {admits : Json → Json → Prop}

/-- Properties that stand each name once, and declare what another list declares, ask the same. -/
theorem satisfies_iff_of_get?_eq {properties declared : Fields} (hnodup : properties.keys.Nodup)
    (hget : ∀ name, properties.get? name = declared.get? name) {required : List String} {v : Json} :
    Satisfies admits declared required v ↔
      ∃ object, v = .obj object ∧ ∀ p ∈ properties, Holds admits required object p.1 p.2 := by
  refine exists_congr fun object => and_congr_right fun _ => ?_
  -- No name stands twice among the properties, so looking one up is being one of them.
  constructor
  · rintro h ⟨name, schema⟩ hmem
    exact h name schema (hget name ▸ (Fields.get?_eq_some_iff_mem hnodup).mpr hmem)
  · intro h name schema hdeclared
    rw [← hget] at hdeclared
    exact h (name, schema) ((Fields.get?_eq_some_iff_mem hnodup).mp hdeclared)

/-- A record of properties, or what stands for it when nothing is declared. -/
theorem admits_recordOr_iff {properties declared : Fields} (hnodup : properties.keys.Nodup)
    (hget : ∀ name, properties.get? name = declared.get? name) {required : List String}
    {otherwise : Shape} {v : Json} :
    (recordOr properties required otherwise).Admits admits v ↔
      if declared.isEmpty then otherwise.Accepts v else Satisfies admits declared required v := by
  have hempty : properties.isEmpty = declared.isEmpty := by
    rw [Bool.eq_iff_iff, List.isEmpty_iff, List.isEmpty_iff, Fields.eq_nil_iff_get?_eq_none,
      Fields.eq_nil_iff_get?_eq_none]
    simp only [hget]
  unfold recordOr
  rw [hempty]
  split
  · exact Iff.rfl
  · exact (satisfies_iff_of_get?_eq hnodup hget).symm

theorem admits_mergedForm_iff {schema : Fields} {v : Json} :
    (mergedForm schema).Admits admits v ↔ MergeAdmits admits schema v := by
  unfold mergedForm MergeAdmits
  dsimp only
  rw [admits_recordOr_iff (nodup_keys_mergedProperties _) (get?_mergedProperties _)]
  split
  · split
    · next name hname =>
      by_cases harray : name = "array"
      · simp [hname, harray, accepts_untypedSequence_iff]
      · simp [hname, harray, Shape.accepts_mapping_iff]
    · next hname => simp [hname, Shape.accepts_mapping_iff]
  · exact Iff.rfl

theorem admits_listForm_iff {schema : Fields} {v : Json} :
    (listForm schema).Admits admits v ↔ ListAdmits admits schema v := by
  unfold listForm ListAdmits
  generalize schema.get? "items" = items
  match items with
  | some (.obj (_ :: _)) => exact Iff.rfl
  | some (.obj []) | some .null | some (.bool _) | some (.num _) | some (.str _) | some (.arr _)
  | none => exact accepts_untypedSequence_iff

theorem admits_objectForm_iff {schema : Fields} {v : Json} :
    (objectForm schema).Admits admits v ↔ ObjectAdmits admits schema v := by
  unfold objectForm ObjectAdmits
  rw [admits_recordOr_iff (nodup_keys_override_nil _) (get?_override_nil _),
    Shape.accepts_mapping_iff]

theorem admits_typedForm_iff {schema : Fields} {v : Json} :
    (typedForm schema).Admits admits v ↔ TypeAdmits admits schema v := by
  unfold typedForm TypeAdmits
  generalize schema.get? "type" = type
  match type with
  | some (.arr types) => exact accepts_typeList_iff
  | some (.str name) =>
    dsimp only
    split
    · exact admits_listForm_iff
    · split
      · exact admits_objectForm_iff
      · split
        · exact accepts_formatted_iff
        · exact accepts_simple_iff
  | some .null | some (.bool _) | some (.num _) | some (.obj _) | none =>
    exact accepts_simple_iff

/-- **The form of a node asks what the node's keywords ask.** The cases are the keywords, in the
order in which they decide. -/
theorem admits_form_iff {node v : Json} :
    (form node).Admits admits v ↔ NodeAdmits admits node v := by
  unfold form NodeAdmits
  cases node with
  | obj fields =>
    dsimp only
    split
    · exact iff_true_intro .unknown
    · split
      · exact accepts_enumShape_iff
      · split
        · exact admits_mergedForm_iff
        · split
          · exact Iff.rfl
          · split
            · exact Iff.rfl
            · exact admits_typedForm_iff
  | _ => exact iff_true_intro .unknown

end ToolShape.Schema
