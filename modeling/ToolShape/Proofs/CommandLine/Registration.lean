import ToolShape.Proofs.CommandLine.Tasks
import ToolShape.Proofs.Tool.Batch

/-!
# Registering definitions, or the tools made of them

> **Definitions of different names can be registered, and so can the tools made of them, and the
> registry then has the same tools** (`Registry.adds_registerAll`, `Registry.adds_registerTools`).

What a consistent registry finds is settled by its list of tools (`Registry.get?_eq_of_tools_eq`),
so registries with one list cannot be told apart by looking at them. Replacing suffixes throughout
a registry is replacing them in its list (`Registry.tools_resuffix`).
-/

set_option autoImplicit false

namespace ToolShape.Registry

open Name (Suffix)
open Tool (Definition Catalog)

variable {r : Registry}

/-! ## Looking at a registry -/

theorem Consistent.get?_eq_some_iff (h : r.Consistent) {name : String} {tool : Tool} :
    r.get? name = some tool ↔ tool ∈ r.tools ∧ tool.name = name := by
  unfold tools
  rw [List.mem_filterMap]
  constructor
  · intro hget
    refine ⟨⟨name, ?_, hget⟩, h.name_of_get? name tool hget⟩
    rw [h.mem_order_iff, has_eq_isSome_get?, hget]
    rfl
  · rintro ⟨⟨other, _, hget⟩, hname⟩
    have hother := h.name_of_get? other tool hget
    rwa [← hname, hother]

theorem get?_eq_of_tools_eq {r' : Registry} (h : r.Consistent) (h' : r'.Consistent)
    (htools : r.tools = r'.tools) (name : String) : r.get? name = r'.get? name := by
  apply Option.ext
  intro tool
  rw [h.get?_eq_some_iff, h'.get?_eq_some_iff, htools]

/-! ## Adding tools -/

/-- Tools have been added at the end, and nothing has failed. -/
structure Reply.Adds (r : Registry) (added : List Tool) (reply : Reply Unit) : Prop where
  result_eq : reply.result = .ok ()
  consistent : reply.registry.Consistent
  tools_eq : reply.registry.tools = r.tools ++ added

theorem Reply.Adds.tools_eq_added {converter : Converter} {added : List Tool} {reply : Reply Unit}
    (h : reply.Adds (empty converter) added) : reply.registry.tools = added :=
  h.tools_eq

theorem Reply.Adds.cons {tool : Tool} {rest : List Tool} {reply : Reply Unit}
    {events : List Event} {next : Registry} (hnext : next.tools = r.tools ++ [tool])
    (h : reply.Adds next rest) :
    Reply.Adds r (tool :: rest) ⟨reply.registry, events, reply.result⟩ := by
  refine ⟨h.result_eq, h.consistent, ?_⟩
  rw [h.tools_eq, hnext, List.append_assoc, List.singleton_append]

theorem adds_registerTools (h : r.Consistent) {tools : List Tool}
    (hnodup : (tools.map Tool.name).Nodup) (hfree : ∀ tool ∈ tools, r.has tool.name = false) :
    (r.registerTools tools).Adds r tools := by
  induction tools generalizing r with
  | nil => exact ⟨rfl, h, (List.append_nil _).symm⟩
  | cons tool rest ih =>
    rw [List.map_cons, List.nodup_cons] at hnodup
    have hnew := hfree tool List.mem_cons_self
    rw [registerTools, registerTool_of_not_has hnew]
    apply Reply.Adds.cons (tools_insert h hnew)
    apply ih (h.insert hnew) hnodup.2
    intro other hother
    -- The tool just added has a name that no other one bears.
    rw [has_insert, hfree other (List.mem_cons_of_mem tool hother), Bool.or_false]
    apply beq_false_of_ne
    intro hname
    exact hnodup.1 (hname ▸ List.mem_map_of_mem hother)

theorem AllFree.tail {definition : Definition} {rest : List Definition}
    (h : r.AllFree (definition :: rest)) : (r.register definition).registry.AllFree rest := by
  obtain ⟨hnodup, hnone⟩ := h
  unfold Catalog.names at hnodup hnone
  rw [List.map_cons, List.nodup_cons] at hnodup
  refine ⟨hnodup.2, ?_⟩
  intro name hname
  rw [has_register, hnone name (List.mem_cons_of_mem _ hname), Bool.or_false]
  apply beq_false_of_ne
  intro heq
  exact hnodup.1 (heq ▸ hname)

theorem adds_registerAll (h : r.Consistent) {definitions : List Definition}
    (hfree : r.AllFree definitions) :
    (r.registerAll definitions).Adds r
      (CommandLine.convertAll r.converter definitions r.drawn).value := by
  induction definitions generalizing r with
  | nil => exact ⟨rfl, h, (List.append_nil _).symm⟩
  | cons definition rest ih =>
    have hnew : r.has definition.name.text = false := hfree.2 _ List.mem_cons_self
    have hrest := hfree.tail
    rw [registerAll_cons_of_not_has hnew, CommandLine.convertAll_cons]
    rw [register_of_not_has hnew] at hrest ⊢
    have hadvanced := h.advance (r.convert definition).drawn
    have hfree : (r.advance (r.convert definition).drawn).has (r.convert definition).value.name =
        false := by
      rw [name_convert]
      exact hnew
    have hnext : ((r.advance (r.convert definition).drawn).insert
        (r.convert definition).value).tools = r.tools ++ [(r.convert definition).value] :=
      tools_insert hadvanced hfree
    exact Reply.Adds.cons hnext (ih (hadvanced.insert hfree) hrest)

/-! ## Replacing suffixes -/

/-- A registry with the suffixes of its tools replaced. -/
def resuffix (ρ : Suffix → Suffix) (r : Registry) : Registry :=
  { r with table := r.table.map fun _ tool => tool.resuffix ρ }

variable {ρ : Suffix → Suffix}

theorem get?_resuffix (name : String) :
    (r.resuffix ρ).get? name = (r.get? name).map (Tool.resuffix ρ) :=
  Std.HashMap.getElem?_map

theorem Consistent.resuffix (h : r.Consistent) : (r.resuffix ρ).Consistent := by
  refine ⟨h.order_nodup, ?_, ?_⟩
  · intro name
    rw [has_eq_isSome_get?, get?_resuffix, Option.isSome_map, ← has_eq_isSome_get?]
    exact h.mem_order_iff name
  · intro name tool hget
    rw [get?_resuffix] at hget
    obtain ⟨found, hfound, rfl⟩ := Option.map_eq_some_iff.mp hget
    exact h.name_of_get? name found hfound

theorem tools_resuffix : (r.resuffix ρ).tools = r.tools.map (Tool.resuffix ρ) := by
  unfold tools
  rw [List.map_filterMap]
  apply List.filterMap_congr
  intro name _
  exact get?_resuffix name

end ToolShape.Registry
