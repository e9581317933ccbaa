import ToolShape.Proofs.Tool.Registry

/-!
# The history of a registry

> **However a registry came about, its order and its table hold the same tools, and whatever comes
> next only adds to them at the end** (`Registry.run_invariant`).

Adding a tool writes to the order and to the table without a look at either, so that the two agree
rests on every operation that adds a tool having found its name free. `Registry.Reaches` says this
once: the suffixes go on, or a tool is added under a free name, and nothing else ever happens to a
registry. Each operation comes down to such steps (`Registry.reaches_perform`), and what holds of
all histories is proved from the steps and not from the operations.
-/

set_option autoImplicit false

namespace ToolShape.Registry

open Tool (Definition)

/-! ## Steps -/

/-- One registry becomes another: suffixes are drawn, and tools are added under free names. -/
inductive Reaches (r : Registry) : Registry → Prop where
  | refl : Reaches r r
  | draw {s : Registry} (before : Reaches r s) (count : Nat) : Reaches r (s.advance count)
  | add {s : Registry} {tool : Tool} (before : Reaches r s) (free : s.has tool.name = false) :
    Reaches r (s.insert tool)

variable {r s t : Registry}

theorem Reaches.trans (h : r.Reaches s) (h' : s.Reaches t) : r.Reaches t := by
  induction h' with
  | refl => exact h
  | draw _ count ih => exact ih.draw count
  | add _ free ih => exact ih.add free

/-- **Every step keeps a registry consistent.** -/
theorem Reaches.consistent (h : r.Reaches s) (hr : r.Consistent) : s.Consistent := by
  induction h with
  | refl => exact hr
  | draw _ count ih => exact ih.advance count
  | add _ free ih => exact ih.insert free

/-- **No step moves a name**: new ones come at the end. -/
theorem Reaches.isPrefix_order (h : r.Reaches s) : r.order <+: s.order := by
  induction h with
  | refl => exact List.prefix_rfl
  | draw _ _ ih => exact ih
  | add _ _ ih => exact ih.trans (List.prefix_append _ _)

/-- **No step touches a tool**: under its name it stays what it was. -/
theorem Reaches.get?_eq_some (h : r.Reaches s) {name : String} {tool : Tool}
    (htool : r.get? name = some tool) : s.get? name = some tool := by
  induction h with
  | refl => exact htool
  | draw _ _ ih => exact ih
  | @add s new _ free ih =>
    -- The name of the tool that is added was free, so it is another one.
    have hne : new.name ≠ name := by
      rintro rfl
      rw [has_eq_isSome_get?, ih] at free
      cases free
    rw [get?_insert free, if_neg hne]
    exact ih

/-! ## Operations -/

/-- What can be done with a registry, or happen to it. -/
inductive Operation where
  | register (definition : Definition)
  /-- Registers a tool that was converted before, here or elsewhere; it may have been decoded. -/
  | registerTool (tool : Tool)
  | convertAndRegister (definition : Definition)
  /-- Registers a definition given by its parts; for a type the schema is the type's own. -/
  | registerNew (name description : String) (schema : Json)
  | registerAll (definitions : List Definition)
  | registerTools (tools : List Tool)
  | registerDocument (text : String)
  | validate (name : String) (arguments : Json)
  /-- Reads one of the views: a tool, the names, the tools, their records, summaries or
  declarations. -/
  | look
  /-- Somebody else draws from the same source. -/
  | drawElsewhere (count : Nat)

/-- The registry after an operation, whether that succeeds or fails. -/
def perform : Operation → Registry → Registry
  | .register definition, r => (r.register definition).registry
  | .registerTool tool, r => (r.registerTool tool).registry
  | .convertAndRegister definition, r => (r.convertAndRegister definition).registry
  | .registerNew name description schema, r => (r.registerNew name description schema).registry
  | .registerAll definitions, r => (r.registerAll definitions).registry
  | .registerTools tools, r => (r.registerTools tools).registry
  | .registerDocument text, r => (r.registerDocument text).registry
  | .validate name arguments, r => (r.validate name arguments).registry
  | .look, r => r
  | .drawElsewhere count, r => r.advance count

/-- The registry after operations in turn. -/
def run : List Operation → Registry → Registry
  | [], r => r
  | operation :: rest, r => run rest (perform operation r)

theorem reaches_register (r : Registry) (definition : Definition) :
    r.Reaches (r.register definition).registry := by
  cases h : r.has definition.name.text with
  | true =>
    rw [register_of_has h]
    exact .refl
  | false =>
    rw [register_of_not_has h]
    exact (Reaches.refl.draw _).add h

theorem reaches_registerTool (r : Registry) (tool : Tool) :
    r.Reaches (r.registerTool tool).registry := by
  cases h : r.has tool.name with
  | true =>
    rw [registerTool_of_has h]
    exact .refl
  | false =>
    rw [registerTool_of_not_has h]
    exact Reaches.refl.add h

theorem reaches_registerNew (r : Registry) (name description : String) (schema : Json) :
    r.Reaches (r.registerNew name description schema).registry := by
  unfold registerNew
  split
  · exact .refl
  · exact reaches_register r _

/-- Up to the first failure, each definition adds its steps. -/
theorem reaches_registerAll (r : Registry) (definitions : List Definition) :
    r.Reaches (r.registerAll definitions).registry := by
  induction definitions generalizing r with
  | nil => exact .refl
  | cons definition rest ih =>
    have hfirst := reaches_register r definition
    rw [registerAll]
    dsimp only
    split
    · exact hfirst
    · exact hfirst.trans (ih _)

theorem reaches_registerTools (r : Registry) (tools : List Tool) :
    r.Reaches (r.registerTools tools).registry := by
  induction tools generalizing r with
  | nil => exact .refl
  | cons tool rest ih =>
    have hfirst := reaches_registerTool r tool
    rw [registerTools]
    dsimp only
    split
    · exact hfirst
    · exact hfirst.trans (ih _)

theorem reaches_registerDocument (r : Registry) (text : String) :
    r.Reaches (r.registerDocument text).registry := by
  unfold registerDocument
  split
  · exact .refl
  · exact reaches_registerAll r _

theorem registry_validate (r : Registry) (name : String) (arguments : Json) :
    (r.validate name arguments).registry = r := by
  unfold validate
  split <;> rfl

/-- **Every operation comes down to steps.** -/
theorem reaches_perform (r : Registry) (operation : Operation) :
    r.Reaches (perform operation r) := by
  cases operation with
  | register definition => exact reaches_register r definition
  | registerTool tool => exact reaches_registerTool r tool
  | convertAndRegister definition =>
    -- The suffixes are drawn whether or not the name is free.
    exact (Reaches.refl.draw _).trans (reaches_registerTool _ _)
  | registerNew name description schema => exact reaches_registerNew r name description schema
  | registerAll definitions => exact reaches_registerAll r definitions
  | registerTools tools => exact reaches_registerTools r tools
  | registerDocument text => exact reaches_registerDocument r text
  | validate name arguments =>
    show r.Reaches (r.validate name arguments).registry
    rw [registry_validate]
    exact .refl
  | look => exact .refl
  | drawElsewhere count => exact Reaches.refl.draw count

theorem reaches_run (operations : List Operation) (r : Registry) :
    r.Reaches (run operations r) := by
  induction operations generalizing r with
  | nil => exact .refl
  | cons operation rest ih => exact (reaches_perform r operation).trans (ih _)

/-! ## Views -/

/-- The views of a registry go side by side: at each position of the order the table, the tools and
the records hold the one tool. -/
structure Aligned (r : Registry) : Prop where
  length_order : r.order.length = r.size
  length_tools : r.tools.length = r.size
  length_records : r.records.length = r.size
  at_position : ∀ (i : Nat) name, r.order[i]? = some name →
    ∃ tool, r.get? name = some tool ∧ r.tools[i]? = some tool ∧
      r.records[i]? = some tool.arguments

theorem Consistent.isSome_get?_iff (h : r.Consistent) (name : String) :
    (r.get? name).isSome = true ↔ name ∈ r.order := by
  rw [h.mem_order_iff, has_eq_isSome_get?]

/-- Every name in order has its tool, so listing the tools skips none. -/
theorem Consistent.map_get?_order (h : r.Consistent) : r.order.map r.get? = r.tools.map some := by
  have hall : ∀ name ∈ r.order, (r.get? name).isSome = true :=
    fun name hname => (h.isSome_get?_iff name).mpr hname
  unfold tools
  generalize r.order = order at hall
  induction order with
  | nil => rfl
  | cons name rest ih =>
    obtain ⟨tool, htool⟩ := Option.isSome_iff_exists.mp (hall name List.mem_cons_self)
    rw [List.map_cons, List.filterMap_cons_some htool, List.map_cons, htool,
      ih fun other hother => hall other (List.mem_cons_of_mem name hother)]

theorem Consistent.aligned (h : r.Consistent) : r.Aligned := by
  have hlength : r.tools.length = r.size := by
    have := congrArg List.length h.map_get?_order
    rw [List.length_map, List.length_map] at this
    exact this.symm
  refine ⟨rfl, hlength, ?_, fun i name hname => ?_⟩
  · rw [records, List.length_map, hlength]
  · have hget : (r.order.map r.get?)[i]? = (r.tools.map some)[i]? :=
      congrArg (·[i]?) h.map_get?_order
    rw [List.getElem?_map, List.getElem?_map, hname, Option.map_some] at hget
    obtain ⟨tool, htool, hname'⟩ := Option.map_eq_some_iff.mp hget.symm
    refine ⟨tool, hname'.symm, htool, ?_⟩
    rw [records, List.getElem?_map, htool, Option.map_some]

/-- **Order and table agree in every history, and what is registered stays.** After any operations
on an empty registry no name stands twice in the order, the names are those of the table, and each
tool stands under its own; the views have the registry's size and go side by side; a name is found
exactly when it is in the order. And whatever comes next, the order only goes on, and each tool is
found again under its name. -/
theorem run_invariant (converter : Converter) (past next : List Operation) :
    let r := run past (empty converter)
    let later := run next r
    r.Consistent ∧ r.Aligned ∧ (∀ name, (r.get? name).isSome = true ↔ name ∈ r.order) ∧
      r.order <+: later.order ∧
      ∀ name tool, r.get? name = some tool → later.get? name = some tool := by
  intro r later
  have hpast : (empty converter).Reaches r := reaches_run past (empty converter)
  have hnext : r.Reaches later := reaches_run next r
  have hconsistent : r.Consistent := hpast.consistent (consistent_empty converter)
  exact ⟨hconsistent, hconsistent.aligned, hconsistent.isSome_get?_iff, hnext.isPrefix_order,
    fun _ _ => hnext.get?_eq_some⟩

end ToolShape.Registry
