import ToolShape.Proofs.Json.Enclosing
import ToolShape.Proofs.Tool.Catalog
import Mathlib.Data.List.Forall2

/-!
# What a document of definitions gives

A document is a list of definitions, or an object that holds one, and it makes no difference which:
the list under its key is read as on its own (`Json.readFirst_underKey`), and the definitions in it
are decoded in the same way.

> **A list of definitions and the object with that list give the same catalog, or fail with the same
> failure** (`Tool.Catalog.document_usable`), and the names of a catalog can be relied on: they
> differ from each other, none is blank, looking one up finds its definition, and a selection
> fails with the names that are missing.
-/

set_option autoImplicit false

namespace ToolShape.Tool.Catalog

open Json (readFirst atEnd underKey)

/-! ## The two forms of a document -/

/-- The text of an array that leaves room for one container around it. -/
def IsArrayText (text : String) : Prop :=
  ∃ items rest, readFirst text = .ok (.arr items, rest) ∧ atEnd rest = true ∧
    (Json.arr items).nesting ≤ 126

/-- **A list of definitions may stand under its key**, and nothing else changes. -/
theorem parse_underKey_tools {text : String} (h : IsArrayText text) :
    parse (underKey "tools" text) = parse text := by
  obtain ⟨items, rest, hread, hend, hnesting⟩ := h
  unfold parse
  rw [hread, Json.readFirst_underKey "tools" hread hend (Nat.lt_succ_of_le hnesting)]
  have hdecode : decode (.obj [("tools", .arr items)]) = decode (.arr items) := rfl
  have hnothing : atEnd [] = true := rfl
  dsimp only
  rw [hdecode, hend, hnothing]

/-- A document that fails because its text is malformed. Where in the text is not told. -/
def Malformed (text : String) : Prop := parse text = .error (.unreadable .malformed)

/-- What is malformed on its own, such as a list with a number out of range, is so under the key. -/
theorem malformed_underKey_tools {text : String} (h : readFirst text = .error .malformed) :
    Malformed text ∧ Malformed (underKey "tools" text) := by
  unfold Malformed parse
  rw [h, Json.readFirst_underKey_malformed "tools" h]
  exact ⟨rfl, rfl⟩

/-! ## Decoding -/

theorem decodeAll_eq_ok_iff {items : List Json} {definitions : List Definition} :
    decodeAll items = .ok definitions ↔
      List.Forall₂ (fun v d => Definition.decodeAt .tagged v = .ok d) items definitions := by
  induction items generalizing definitions with
  | nil => cases definitions <;> simp [decodeAll]
  | cons v rest ih =>
    rw [decodeAll]
    cases hfirst : Definition.decodeAt .tagged v with
    | error fault => cases definitions <;> simp [bind, Except.bind, hfirst]
    | ok d =>
      cases hothers : decodeAll rest with
      | error fault =>
        cases definitions <;> simp [bind, Except.bind, hfirst, ← ih, hothers]
      | ok others =>
        cases definitions <;> simp [bind, Except.bind, pure, Except.pure, hfirst, ← ih, hothers]

/-- Where the definitions of a catalog come from. -/
def DecodedFrom (text : String) (definitions : List Definition) : Prop :=
  ∃ document rest items, readFirst text = .ok (document, rest) ∧ atEnd rest = true ∧
    definitionList? document = some items ∧
    List.Forall₂ (fun v d => ∃ raw, Definition.decodeAt .tagged v = .ok raw ∧ settled raw = d)
      items definitions

theorem exists_items_of_decode {document : Json} {definitions : List Definition}
    (h : decode document = .ok definitions) :
    ∃ items, definitionList? document = some items ∧
      List.Forall₂ (fun v d => ∃ raw, Definition.decodeAt .tagged v = .ok raw ∧ settled raw = d)
        items definitions := by
  unfold decode at h
  split at h
  · next raw hraw =>
    obtain ⟨items, hitems, hall⟩ := Option.map_eq_some_iff.mp hraw
    cases h
    refine ⟨items, hitems, List.forall₂_map_right_iff.mpr ?_⟩
    exact (decodeAll_eq_ok_iff.mp hall).imp fun v d hd => ⟨d, hd, rfl⟩
  · cases h

theorem definitions_of_ofDefinitions {definitions : List Definition} {catalog : Catalog}
    (h : ofDefinitions definitions = .ok catalog) : catalog.definitions = definitions := by
  unfold ofDefinitions at h
  split at h
  · cases h
  · cases h
    rfl

theorem decodedFrom_of_parse {text : String} {catalog : Catalog} (h : parse text = .ok catalog) :
    DecodedFrom text catalog.definitions := by
  unfold parse at h
  split at h
  · cases h
  next document rest hread =>
  split at h
  · cases h
  next definitions hdecode =>
  split at h
  · next hend =>
    obtain ⟨items, hitems, hall⟩ := exists_items_of_decode hdecode
    rw [definitions_of_ofDefinitions h]
    exact ⟨document, rest, items, hread, hend, hitems, hall⟩
  · cases h

/-! ## Looking up -/

variable {catalog : Catalog}

theorem name_of_byName? {name : String} {d : Definition} (h : catalog.byName? name = some d) :
    d.name.text = name := by
  have hname := @List.find?_some _ (fun d : Definition => d.name.text == name) _ _ h
  exact beq_iff_eq.mp hname

theorem isSome_byName?_iff {name : String} :
    (catalog.byName? name).isSome = true ↔ name ∈ names catalog.definitions := by
  unfold byName? names
  rw [List.find?_isSome, List.mem_map]
  simp

theorem byName?_eq_some_iff (h : (names catalog.definitions).Nodup) {name : String}
    {d : Definition} :
    catalog.byName? name = some d ↔ d ∈ catalog.definitions ∧ d.name.text = name := by
  constructor
  · exact fun hfound => ⟨List.mem_of_find?_eq_some hfound, name_of_byName? hfound⟩
  · rintro ⟨hmem, rfl⟩
    obtain ⟨other, hother⟩ := Option.isSome_iff_exists.mp
      (isSome_byName?_iff.mpr (List.mem_map_of_mem hmem))
    have hsame := List.inj_on_of_nodup_map h (List.mem_of_find?_eq_some hother) hmem
      (name_of_byName? hother)
    rw [hother, hsame]

/-! ## Selecting -/

/-- The names asked for that no definition has. -/
def missing (catalog : Catalog) (wanted : List String) : List String :=
  wanted.filter fun name => name ∉ names catalog.definitions

theorem missing_eq_nil_iff {wanted : List String} :
    catalog.missing wanted = [] ↔ ∀ name ∈ wanted, name ∈ names catalog.definitions := by
  unfold missing
  rw [List.filter_eq_nil_iff]
  simp

theorem select_eq (catalog : Catalog) (wanted : List String) :
    catalog.select wanted =
      if catalog.missing wanted = [] then .ok (wanted.filterMap catalog.byName?)
      else .error (.unknownTools (catalog.missing wanted)) := by
  have hmissing : wanted.filter (fun name => (catalog.byName? name).isNone) =
      catalog.missing wanted := by
    refine List.filter_congr fun name _ => ?_
    rw [← Option.not_isSome, Bool.eq_iff_iff, Bool.not_eq_true', ← Bool.not_eq_true,
      isSome_byName?_iff, decide_eq_true_eq]
  unfold select
  rw [hmissing]
  split
  · next hnone => rw [if_pos hnone]
  · next hsome => rw [if_neg hsome]

/-- What is selected are the definitions found for the names, one for each. -/
theorem forall₂_byName?_iff {wanted : List String} {definitions : List Definition} :
    List.Forall₂ (fun name d => catalog.byName? name = some d) wanted definitions ↔
      (∀ name ∈ wanted, name ∈ names catalog.definitions) ∧
        wanted.filterMap catalog.byName? = definitions := by
  induction wanted generalizing definitions with
  | nil => simp [eq_comm]
  | cons name rest ih =>
    rw [List.forall_mem_cons, ← isSome_byName?_iff]
    cases hfound : catalog.byName? name with
    | none => cases definitions <;> simp [hfound]
    | some d =>
      rw [List.filterMap_cons_some hfound]
      cases definitions with
      | nil => simp
      | cons e others => simp [hfound, ih, and_left_comm]

/-- **A selection gives the definitions with the names asked for, in the order asked**, or fails with
the names that are missing. -/
theorem select_eq_ok_iff {wanted : List String} {definitions : List Definition} :
    catalog.select wanted = .ok definitions ↔
      List.Forall₂ (fun name d => catalog.byName? name = some d) wanted definitions := by
  rw [forall₂_byName?_iff, select_eq, ← missing_eq_nil_iff]
  split
  · next hnone => simp [hnone]
  · next hsome => simp [hsome]

/-! ## Catalogs that can be relied on -/

/-- What may be taken for granted of a catalog that was parsed. -/
structure Usable (catalog : Catalog) : Prop where
  nodup : (names catalog.definitions).Nodup
  visible : ∀ d ∈ catalog.definitions, ∃ c ∈ d.name.text.toList, Text.isBlank c = false
  found : ∀ name d,
    catalog.byName? name = some d ↔ d ∈ catalog.definitions ∧ d.name.text = name
  occurs : ∀ name, (catalog.byName? name).isSome = true ↔ name ∈ names catalog.definitions
  selected : ∀ wanted definitions, catalog.select wanted = .ok definitions ↔
    List.Forall₂ (fun name d => d ∈ catalog.definitions ∧ d.name.text = name) wanted definitions
  succeeds : ∀ wanted, (∃ definitions, catalog.select wanted = .ok definitions) ↔
    ∀ name ∈ wanted, name ∈ names catalog.definitions
  refused : ∀ wanted failure, catalog.select wanted = .error failure ↔
    catalog.missing wanted ≠ [] ∧ failure = .unknownTools (catalog.missing wanted)

theorem exists_visible (name : Name) : ∃ c ∈ name.text.toList, Text.isBlank c = false := by
  have hvisible := name.visible
  rw [Text.allBlank, List.all_eq_false] at hvisible
  obtain ⟨c, hc, hblank⟩ := hvisible
  exact ⟨c, hc, Bool.not_eq_true _ ▸ hblank⟩

theorem usable_of_nodup (h : (names catalog.definitions).Nodup) : Usable catalog where
  nodup := h
  visible d _ := exists_visible d.name
  found _ _ := byName?_eq_some_iff h
  occurs _ := isSome_byName?_iff
  selected wanted definitions := by
    rw [select_eq_ok_iff]
    simp only [byName?_eq_some_iff h]
  succeeds wanted := by
    rw [← missing_eq_nil_iff, select_eq]
    by_cases hnone : catalog.missing wanted = []
    · simp [hnone]
    · simp [hnone]
  refused wanted failure := by
    rw [select_eq]
    by_cases hnone : catalog.missing wanted = []
    · simp [hnone]
    · simp [hnone, eq_comm]

/-- **A document may be a list of definitions or the object with that list**: both parse to the same
catalog, or fail alike. A text that is malformed stays so under the key. Whatever parses to a
catalog has decoded one by one, in order, and its names can be relied on. -/
theorem document_usable (text : String) :
    (IsArrayText text → parse (underKey "tools" text) = parse text) ∧
      (readFirst text = .error .malformed → Malformed text ∧ Malformed (underKey "tools" text)) ∧
      ∀ catalog, parse text = .ok catalog →
        DecodedFrom text catalog.definitions ∧ Usable catalog :=
  ⟨parse_underKey_tools, malformed_underKey_tools, fun _ h =>
    ⟨decodedFrom_of_parse h, usable_of_nodup (nodup_names_of_parse h)⟩⟩

/-- Two definitions, one of them written as a list of its values. -/
theorem document_usable_for_two :
    let text := "[\x7b\"name\": \"b\", \"parameters\": true\x7d, [\"a\", \"first\"]]"
    let b : Definition := ⟨⟨"b", by decide⟩, "", .bool true⟩
    let a : Definition := ⟨⟨"a", by decide⟩, "first", Definition.emptySchema⟩
    IsArrayText text ∧ underKey "tools" text =
      "\x7b\"tools\": [\x7b\"name\": \"b\", \"parameters\": true\x7d, [\"a\", \"first\"]]\x7d" ∧
    parse (underKey "tools" text) = .ok ⟨[b, a]⟩ ∧
    select ⟨[b, a]⟩ ["a", "b", "a"] = .ok [a, b, a] ∧
    select ⟨[b, a]⟩ ["x", "a", "y", "x"] = .error (.unknownTools ["x", "y", "x"]) := by
  intro text b a
  have hread : readFirst text =
      .ok (.arr [.obj [("name", .str "b"), ("parameters", .bool true)],
        .arr [.str "a", .str "first"]], []) := by
    dsimp only [text]
    cbv
  have harray : IsArrayText text := ⟨_, _, hread, rfl, by decide⟩
  have hdecode : decode (.arr [.obj [("name", .str "b"), ("parameters", .bool true)],
      .arr [.str "a", .str "first"]]) = .ok [b, a] := rfl
  have hparse : parse text = .ok ⟨[b, a]⟩ := by
    unfold parse
    rw [hread]
    dsimp only
    rw [hdecode]
    rfl
  obtain ⟨hsame, -, husable⟩ := document_usable text
  obtain ⟨-, hcatalog⟩ := husable _ hparse
  refine ⟨harray, by decide, (hsame harray).trans hparse, ?_, ?_⟩
  · rw [hcatalog.selected]
    simp [a, b]
  · have hmissing : missing ⟨[b, a]⟩ ["x", "a", "y", "x"] = ["x", "y", "x"] := by decide
    rw [hcatalog.refused, hmissing]
    exact ⟨List.cons_ne_nil _ _, rfl⟩

end ToolShape.Tool.Catalog
