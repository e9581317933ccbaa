import ToolShape.Proofs.Conversion.WellFormed
import ToolShape.Proofs.TypeScript.Type
import ToolShape.TypeScript.Declaration

/-!
# Declarations come once, and before their use

> **A file declares the record names of its tools in the order in which they first occur, each of
> them once, and before any declaration that uses it** (`TypeScript.declaresInOrder`).

Nothing is assumed of the tools: records that bear one name, nested in each other or in different
tools, are declared once, as the first of them. So an interface may be there for another record than
the one that mentions it, and what is declared before its use is the name.

Order is shown first of the records of a single shape (`ordered_records`): nested records come
before the record they stand in, and a type mentions records that are nested in it. Leaving out the
names seen before keeps it (`Ordered.unseen`), since those count as declared.
-/

set_option autoImplicit false

namespace ToolShape

/-- The records of a tool: those in each field in turn, and its arguments last. -/
def Tool.records (tool : Tool) : List RecordShape :=
  tool.arguments.fields.flatMap (·.shape.records) ++ [tool.arguments]

theorem RecordShape.records_eq (r : RecordShape) :
    r.records = r.fields.flatMap (·.shape.records) ++ [r] := by
  obtain ⟨name, fields⟩ := r
  rw [RecordShape.records, FieldShape.recordsOfAll_eq_flatMap]

namespace TypeScript

namespace Declaration

def record? : Declaration → Option RecordShape
  | interface r => some r
  | synonym _ _ => none

def synonym? : Declaration → Option (String × String)
  | interface _ => none
  | synonym name target => some (name, target)

/-- The names of records that the text of a declaration uses. -/
def uses : Declaration → List String
  | interface r => r.fields.flatMap (·.shape.mentioned)
  | synonym _ target => [target]

end Declaration

def interfaces (ds : List Declaration) : List RecordShape := ds.filterMap Declaration.record?

def interfaceNames (ds : List Declaration) : List String := (interfaces ds).map RecordShape.name

@[simp] theorem interfaceNames_nil : interfaceNames [] = [] := rfl

@[simp] theorem interfaceNames_interface (r : RecordShape) (rest : List Declaration) :
    interfaceNames (.interface r :: rest) = r.name :: interfaceNames rest := rfl

@[simp] theorem interfaces_append (as bs : List Declaration) :
    interfaces (as ++ bs) = interfaces as ++ interfaces bs := List.filterMap_append

@[simp] theorem interfaces_map (records : List RecordShape) :
    interfaces (records.map .interface) = records := by
  induction records with
  | nil => rfl
  | cons r rest ih => exact congrArg (r :: ·) ih

@[simp] theorem interfaceNames_append (as bs : List Declaration) :
    interfaceNames (as ++ bs) = interfaceNames as ++ interfaceNames bs := by
  simp [interfaceNames]

@[simp] theorem interfaceNames_map (records : List RecordShape) :
    interfaceNames (records.map .interface) = records.map RecordShape.name := by
  rw [interfaceNames, interfaces_map]

/-! ## The records not seen before -/

/-- What is left of records are the first with each name, among names not seen. -/
theorem names_unseen (seen : List String) (records : List RecordShape) :
    (unseen seen records).map RecordShape.name =
      ((records.map RecordShape.name).filter (!seen.contains ·)).eraseDups := by
  induction records generalizing seen with
  | nil => rfl
  | cons r rest ih =>
    rw [unseen, List.map_cons, List.filter_cons]
    by_cases h : seen.contains r.name = true
    · rw [if_pos h, h, ih]
      rfl
    · rw [if_neg h, Bool.not_eq_true _ |>.mp h, List.map_cons, ih, if_pos Bool.not_false,
        List.eraseDups_cons, List.filter_filter]
      congr 3
      funext name
      rw [List.contains_cons, Bool.not_or]

theorem mem_names_unseen {seen : List String} {records : List RecordShape} {name : String} :
    name ∈ (unseen seen records).map RecordShape.name ↔
      name ∉ seen ∧ name ∈ records.map RecordShape.name := by
  rw [names_unseen, List.mem_eraseDups, List.mem_filter]
  simp [and_comm]

theorem unseen_congr {seen others : List String} (h : ∀ name, name ∈ seen ↔ name ∈ others)
    (records : List RecordShape) : unseen seen records = unseen others records := by
  induction records generalizing seen others with
  | nil => rfl
  | cons r rest ih =>
    have hcontains : seen.contains r.name = others.contains r.name := by
      rw [Bool.eq_iff_iff, List.contains_iff_mem, List.contains_iff_mem]
      exact h r.name
    have hcons : ∀ name, name ∈ r.name :: seen ↔ name ∈ r.name :: others := by
      intro name
      rw [List.mem_cons, List.mem_cons, h]
    rw [unseen, unseen, hcontains, ih h, ih hcons]

/-- The names kept from the first records are seen by the next. -/
theorem unseen_append (seen : List String) (first others : List RecordShape) :
    unseen seen (first ++ others) =
      unseen seen first ++ unseen ((unseen seen first).map RecordShape.name ++ seen) others := by
  induction first generalizing seen with
  | nil => rfl
  | cons r rest ih =>
    rw [List.cons_append, unseen, unseen]
    split
    · exact ih seen
    · rw [ih, List.cons_append]
      congr 2
      apply unseen_congr
      intro name
      simp only [List.map_cons, List.mem_append, List.mem_cons]
      tauto

/-- Records of different names are all kept. -/
theorem unseen_eq_self {seen : List String} {records : List RecordShape}
    (hnodup : (records.map RecordShape.name).Nodup)
    (hseen : ∀ r ∈ records, r.name ∉ seen) : unseen seen records = records := by
  induction records generalizing seen with
  | nil => rfl
  | cons r rest ih =>
    rw [List.map_cons, List.nodup_cons] at hnodup
    have hr : ¬ seen.contains r.name = true := by
      rw [List.contains_iff_mem]
      exact hseen r List.mem_cons_self
    rw [unseen, if_neg hr, ih hnodup.2]
    intro s hs hmem
    rcases List.mem_cons.mp hmem with heq | hmem
    · exact hnodup.1 (heq ▸ List.mem_map_of_mem hs)
    · exact hseen s (List.mem_cons_of_mem r hs) hmem

/-! ## Before use -/

/-- Each declaration uses names declared before it, or in `seen`. -/
def Ordered (seen : List String) (ds : List Declaration) : Prop :=
  ∀ before d after, ds = before ++ d :: after → d.uses ⊆ interfaceNames before ++ seen

theorem ordered_nil (seen : List String) : Ordered seen [] := by
  intro before d after h
  cases before <;> cases h

theorem Ordered.mono {seen more : List String} {ds : List Declaration} (h : Ordered seen ds)
    (hsub : seen ⊆ more) : Ordered more ds := by
  intro before d after heq name hname
  rcases List.mem_append.mp (h before d after heq hname) with hbefore | hseen
  · exact List.mem_append_left _ hbefore
  · exact List.mem_append_right _ (hsub hseen)

theorem Ordered.append {seen : List String} {as bs : List Declaration} (ha : Ordered seen as)
    (hb : Ordered (interfaceNames as ++ seen) bs) : Ordered seen (as ++ bs) := by
  intro before d after h
  rcases List.append_eq_append_iff.mp h with ⟨early, rfl, hbs⟩ | ⟨late, has, hrest⟩
  · -- The declaration is one of the second list, and all of the first stand before it.
    intro name hname
    have hused := hb early d after hbs hname
    rw [List.mem_append, List.mem_append] at hused
    rw [interfaceNames_append, List.mem_append, List.mem_append]
    tauto
  · cases late with
    | nil =>
      rw [List.append_nil] at has
      rw [has] at hb
      simpa using hb [] d after hrest.symm
    | cons e late =>
      rw [List.cons_append, List.cons_eq_cons] at hrest
      obtain ⟨rfl, -⟩ := hrest
      exact ha before d late has

theorem ordered_singleton {seen : List String} {d : Declaration} (h : d.uses ⊆ seen) :
    Ordered seen [d] := by
  intro before e after heq
  cases before with
  | nil =>
    cases heq
    exact h
  | cons _ before => cases before <;> cases heq

theorem ordered_flatMap {α : Type} {declare : α → List Declaration} {xs : List α}
    (h : ∀ x ∈ xs, ∀ seen, Ordered seen (declare x)) (seen : List String) :
    Ordered seen (xs.flatMap declare) := by
  induction xs generalizing seen with
  | nil => exact ordered_nil seen
  | cons x rest ih =>
    rw [List.flatMap_cons]
    apply Ordered.append
    · exact h x List.mem_cons_self seen
    · exact ih (fun y hy => h y (List.mem_cons_of_mem x hy)) _

/-- The records nested in a record are all that its declaration uses. -/
theorem ordered_nested_then_record {r : RecordShape}
    (h : ∀ f ∈ r.fields, ∀ seen, Ordered seen (f.shape.records.map .interface))
    (seen : List String) : Ordered seen (r.records.map .interface) := by
  rw [RecordShape.records_eq, List.map_append, List.map_flatMap]
  apply Ordered.append
  · exact ordered_flatMap h seen
  · apply ordered_singleton
    intro name hname
    obtain ⟨f, hf, hmem⟩ := List.mem_flatMap.mp hname
    rw [← List.map_flatMap, interfaceNames_map, List.map_flatMap]
    exact List.mem_append_left _ (List.mem_flatMap.mpr ⟨f, hf, f.shape.mentioned_subset hmem⟩)

/-- **The records of a shape stand in the order of use**, whatever their names. -/
theorem ordered_records (s : Shape) (seen : List String) :
    Ordered seen (s.records.map .interface) := by
  induction s generalizing seen with
  | sequence items ih =>
    rw [Shape.records_sequence]
    exact ih seen
  | record name fields ih =>
    rw [Shape.records]
    exact ordered_nested_then_record ih seen
  | union members ih =>
    rw [Shape.records_union, List.map_flatMap]
    exact ordered_flatMap ih seen
  | _ => exact ordered_nil seen

/-- Leaving out what was seen before keeps the order. -/
theorem Ordered.unseen {seen : List String} {records : List RecordShape}
    (h : Ordered seen (records.map .interface)) :
    Ordered seen ((TypeScript.unseen seen records).map .interface) := by
  induction records generalizing seen with
  | nil => exact h
  | cons r rest ih =>
    have hfirst : (Declaration.interface r).uses ⊆ seen := by
      simpa using h [] (.interface r) (rest.map .interface) rfl
    have hrest : Ordered (r.name :: seen) (rest.map .interface) := by
      intro before d after heq name hname
      have hused := h (.interface r :: before) d after (by rw [List.map_cons, heq]; rfl) hname
      rw [interfaceNames_interface, List.cons_append, List.mem_cons, List.mem_append] at hused
      rw [List.mem_append, List.mem_cons]
      tauto
    rw [TypeScript.unseen]
    split
    · next hseen =>
      -- The name is declared already, so it is nothing new to those that follow.
      apply ih
      apply hrest.mono
      exact List.cons_subset.mpr ⟨List.contains_iff_mem.mp hseen, List.Subset.refl seen⟩
    · rw [List.map_cons]
      exact (ordered_singleton hfirst).append (ih hrest)

/-! ## The declarations of tools -/

theorem interfaces_declarationsFrom (seen : List String) (tools : List Tool) :
    interfaces (declarationsFrom seen tools) = unseen seen (tools.flatMap Tool.records) := by
  induction tools generalizing seen with
  | nil => rfl
  | cons tool rest ih =>
    rw [declarationsFrom, interfaces_append, interfaces_map, List.flatMap_cons, unseen_append,
      ← ih, RecordShape.records_eq]
    rfl

theorem synonyms_declarationsFrom (seen : List String) (tools : List Tool) :
    (declarationsFrom seen tools).filterMap Declaration.synonym? =
      tools.map fun tool => (aliasName tool, tool.arguments.name) := by
  induction tools generalizing seen with
  | nil => rfl
  | cons tool rest ih =>
    have hfresh : ∀ records : List RecordShape,
        (records.map Declaration.interface).filterMap Declaration.synonym? = [] := by
      intro records
      rw [List.filterMap_map]
      exact List.filterMap_eq_nil_iff.mpr fun r _ => rfl
    rw [declarationsFrom, List.filterMap_append, hfresh, List.nil_append,
      List.filterMap_cons, ih]
    rfl

theorem ordered_declarationsFrom (seen : List String) (tools : List Tool) :
    Ordered seen (declarationsFrom seen tools) := by
  induction tools generalizing seen with
  | nil => exact ordered_nil seen
  | cons tool rest ih =>
    rw [declarationsFrom]
    apply Ordered.append
    · apply Ordered.unseen
      exact ordered_nested_then_record (fun f _ => ordered_records f.shape) seen
    · rw [interfaceNames_map, ← List.singleton_append]
      apply Ordered.append
      · apply ordered_singleton
        -- The arguments are among the tool's records, so they are declared by now.
        intro name hname
        rw [List.mem_singleton.mp hname]
        by_cases hseen : tool.arguments.name ∈ seen
        · exact List.mem_append_right _ hseen
        · apply List.mem_append_left
          apply mem_names_unseen.mpr
          rw [RecordShape.records_eq]
          exact ⟨hseen, List.mem_map_of_mem (List.mem_append_right _ (List.mem_singleton_self _))⟩
      · exact ih _

/-! ## The file -/

/-- What the file of tools declares, and in which order. -/
structure DeclaresInOrder (tools : List Tool) : Prop where
  names_eq : interfaceNames (declarations tools) =
    ((tools.flatMap Tool.records).map RecordShape.name).eraseDups
  names_nodup : (interfaceNames (declarations tools)).Nodup
  before_mention : ∀ before r after, declarations tools = before ++ .interface r :: after →
    ∀ f ∈ r.fields, ∀ name ∈ f.shape.mentioned, name ∈ interfaceNames before
  aliases_eq : (declarations tools).filterMap Declaration.synonym? =
    tools.map fun tool => (aliasName tool, tool.arguments.name)
  before_alias : ∀ before name target after,
    declarations tools = before ++ .synonym name target :: after → target ∈ interfaceNames before
  one_per_record : ((tools.flatMap Tool.records).map RecordShape.name).Nodup →
    interfaces (declarations tools) = tools.flatMap Tool.records

theorem interfaceNames_declarations (tools : List Tool) :
    interfaceNames (declarations tools) =
      ((tools.flatMap Tool.records).map RecordShape.name).eraseDups := by
  rw [interfaceNames, declarations, interfaces_declarationsFrom, names_unseen]
  simp

theorem mem_interfaceNames_iff {tools : List Tool} {name : String} :
    name ∈ interfaceNames (declarations tools) ↔
      ∃ r ∈ tools.flatMap Tool.records, r.name = name := by
  rw [interfaceNames_declarations, List.mem_eraseDups, List.mem_map]

/-- **Every name is declared once, in the order of first occurrence, and before it is used.** -/
theorem declaresInOrder (tools : List Tool) : DeclaresInOrder tools := by
  have hordered : ∀ before d after, declarations tools = before ++ d :: after →
      d.uses ⊆ interfaceNames before := by
    intro before d after h
    have huses := ordered_declarationsFrom [] tools before d after h
    rwa [List.append_nil] at huses
  refine ⟨interfaceNames_declarations tools, ?_, ?_, synonyms_declarationsFrom [] tools, ?_, ?_⟩
  · rw [interfaceNames_declarations]
    exact Schema.nodup_eraseDups _
  · intro before r after h f hf name hname
    exact hordered before (.interface r) after h (List.mem_flatMap.mpr ⟨f, hf, hname⟩)
  · intro before name target after h
    exact hordered before (.synonym name target) after h (List.mem_singleton_self target)
  · intro hnodup
    rw [declarations, interfaces_declarationsFrom]
    exact unseen_eq_self hnodup fun _ _ => List.not_mem_nil

end TypeScript

end ToolShape
