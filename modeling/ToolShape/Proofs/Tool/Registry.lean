import ToolShape.Tool.Registry
import Mathlib.Data.List.Nodup

/-!
# Registries stay consistent

A registry keeps the same tools twice, by order and by name. `Registry.Consistent` says that the two
agree, and adding a tool whose name is free keeps that (`Registry.Consistent.insert`). In a
consistent registry the new tool is the last one, and nothing else about the list of tools changes
(`Registry.tools_insert`).
-/

set_option autoImplicit false

namespace ToolShape.Registry

/-- The names in order are those of the table, each once, and each tool stands under its own. -/
structure Consistent (r : Registry) : Prop where
  order_nodup : r.order.Nodup
  mem_order_iff : ∀ name, name ∈ r.order ↔ r.has name = true
  name_of_get? : ∀ name tool, r.get? name = some tool → tool.name = name

theorem consistent_empty (converter : Converter) : (empty converter).Consistent := by
  refine ⟨List.nodup_nil, fun name => ?_, fun name tool h => ?_⟩
  · simp [empty, has]
  · simp [empty, get?] at h

variable {r : Registry} {tool : Tool}

theorem get?_insert (h : r.has tool.name = false) (name : String) :
    (r.insert tool).get? name = if tool.name = name then some tool else r.get? name := by
  have hnew : ¬ tool.name ∈ r.table := by
    intro hmem
    rw [has, Std.HashMap.contains_iff_mem.mpr hmem] at h
    cases h
  show (r.table.insertIfNew tool.name tool)[name]? = _
  rw [Std.HashMap.getElem?_insertIfNew]
  by_cases hname : tool.name = name
  · subst hname
    simp [hnew]
  · simp [hname, get?]

theorem has_insert (name : String) :
    (r.insert tool).has name = (tool.name == name || r.has name) := by
  show (r.table.insertIfNew tool.name tool).contains name = _
  rw [Std.HashMap.contains_insertIfNew]
  rfl

theorem has_eq_isSome_get? (r : Registry) (name : String) :
    r.has name = (r.get? name).isSome :=
  Std.HashMap.contains_eq_isSome_getElem?

theorem Consistent.not_mem_order (h : r.Consistent) {name : String} (hnew : r.has name = false) :
    name ∉ r.order := by
  intro hmem
  rw [(h.mem_order_iff name).mp hmem] at hnew
  cases hnew

/-- **Adding a tool under a free name keeps a registry consistent.** -/
theorem Consistent.insert (h : r.Consistent) (hnew : r.has tool.name = false) :
    (r.insert tool).Consistent := by
  refine ⟨?_, fun name => ?_, fun name found hfound => ?_⟩
  · show (r.order ++ [tool.name]).Nodup
    rw [List.nodup_append]
    refine ⟨h.order_nodup, List.nodup_singleton _, fun a ha b hb hab => ?_⟩
    rw [hab, List.mem_singleton.mp hb] at ha
    exact h.not_mem_order hnew ha
  · show name ∈ r.order ++ [tool.name] ↔ _
    rw [has_insert, List.mem_append, List.mem_singleton, Bool.or_eq_true, beq_iff_eq,
      h.mem_order_iff name, or_comm, eq_comm]
  · rw [get?_insert hnew] at hfound
    split at hfound
    · next hname =>
      cases hfound
      exact hname
    · exact h.name_of_get? name found hfound

/-- A new tool is the last one. -/
theorem tools_insert (h : r.Consistent) (hnew : r.has tool.name = false) :
    (r.insert tool).tools = r.tools ++ [tool] := by
  show (r.order ++ [tool.name]).filterMap (r.insert tool).get? = _
  rw [List.filterMap_append, List.filterMap_cons, get?_insert hnew, if_pos rfl]
  -- The tools before are found where they were, since none of them has the new name.
  have hold : r.order.filterMap (r.insert tool).get? = r.tools := by
    refine List.filterMap_congr fun name hname => ?_
    rw [get?_insert hnew, if_neg]
    rintro rfl
    exact h.not_mem_order hnew hname
  rw [hold]
  rfl

theorem records_insert (h : r.Consistent) (hnew : r.has tool.name = false) :
    (r.insert tool).records = r.records ++ [tool.arguments] := by
  rw [records, tools_insert h hnew, List.map_append]
  rfl

/-- Only the count of draws moves when suffixes are drawn. -/
theorem Consistent.advance (h : r.Consistent) (count : Nat) : (r.advance count).Consistent :=
  ⟨h.order_nodup, h.mem_order_iff, h.name_of_get?⟩

/-! ## Registering one tool

Either the name is taken and nothing happens, or it is free and the tool is added. -/

theorem registerTool_of_has (h : r.has tool.name = true) :
    r.registerTool tool = ⟨r, [], .error (.alreadyRegistered tool.name)⟩ := by
  rw [registerTool, if_pos h]

theorem registerTool_of_not_has (h : r.has tool.name = false) :
    r.registerTool tool = ⟨r.insert tool, [insertionEvent tool], .ok tool⟩ := by
  rw [registerTool, h]
  rfl

theorem drawn_converter_registerTool (r : Registry) (tool : Tool) :
    (r.registerTool tool).registry.drawn = r.drawn ∧
      (r.registerTool tool).registry.converter = r.converter := by
  unfold registerTool
  split <;> exact ⟨rfl, rfl⟩

/-- A definition is converted from where the source stands. -/
theorem convert_apply (r : Registry) (definition : Tool.Definition) :
    r.convert definition =
      let inner := r.converter.convert definition.name.text definition.schema r.drawn
      ⟨⟨definition, inner.value⟩, inner.drawn, inner.events⟩ := by
  simp [convert, Tool.convert]

/-- A tool bears the name of the definition that it is converted from. -/
theorem name_convert (r : Registry) (definition : Tool.Definition) :
    (r.convert definition).value.name = definition.name.text := rfl

theorem register_of_has {definition : Tool.Definition} (h : r.has definition.name.text = true) :
    r.register definition = ⟨r, [], .error (.alreadyRegistered definition.name.text)⟩ := by
  rw [register, if_pos h]

theorem register_of_not_has {definition : Tool.Definition}
    (h : r.has definition.name.text = false) :
    r.register definition =
      ⟨(r.advance (r.convert definition).drawn).insert (r.convert definition).value,
        (r.convert definition).events ++ [insertionEvent (r.convert definition).value],
        .ok (r.convert definition).value⟩ := by
  rw [register, h]
  rfl

theorem consistent_registerTool (h : r.Consistent) (tool : Tool) :
    (r.registerTool tool).registry.Consistent := by
  cases hhas : r.has tool.name with
  | true =>
    rw [registerTool_of_has hhas]
    exact h
  | false =>
    rw [registerTool_of_not_has hhas]
    exact h.insert hhas

end ToolShape.Registry
