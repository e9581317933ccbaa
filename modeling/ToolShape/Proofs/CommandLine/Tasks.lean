import ToolShape.CommandLine.Tasks
import ToolShape.Proofs.Conversion.Replacement
import Mathlib.Data.List.Nodup
import Mathlib.Data.List.Perm.Basic

/-!
# Tasks and their order

> **However tasks run, their tools are those of converting one definition after another, up to the
> suffixes** (`convertAtOnce_eq_resuffix`).

Two things are in the way, and neither depends on the other. Tasks finish in any order; but each
result carries its place, no two have the same, and a sorted list is settled by what is in it
(`convertAtOnce_eq`). And each draw gets some suffix; but as long as these are different, each tool
is what the first conversion makes of its definition, with other suffixes (`results_eq_resuffix`).
-/

set_option autoImplicit false

namespace ToolShape

open Name (Suffix Source)
open Tool (Definition)

/-- A tool with the suffixes of its records replaced. -/
def Tool.resuffix (ρ : Suffix → Suffix) (tool : Tool) : Tool :=
  ⟨tool.definition, tool.arguments.rename (Name.resuffix ρ)⟩

theorem Tool.convert_eq (converter : Converter) (definition : Definition) (position : Nat) :
    Tool.convert converter definition position =
      let inner := converter.convert definition.name.text definition.schema position
      ⟨⟨definition, inner.value⟩, inner.drawn, inner.events⟩ := by
  simp [Tool.convert]

namespace CommandLine

/-! ## One after another -/

theorem convertAll_cons (converter : Converter) (definition : Definition) (rest : List Definition)
    (position : Nat) :
    convertAll converter (definition :: rest) position =
      let first := Tool.convert converter definition position
      let others := convertAll converter rest (position + first.drawn)
      ⟨first.value :: others.value, first.drawn + others.drawn, first.events ++ others.events⟩ := by
  simp [convertAll]

theorem definitions_convertAll (converter : Converter) (definitions : List Definition)
    (position : Nat) :
    (convertAll converter definitions position).value.map Tool.definition = definitions := by
  induction definitions generalizing position with
  | nil => rfl
  | cons definition rest ih =>
    rw [convertAll_cons, List.map_cons, ih, Tool.convert_eq]

/-! ## In order of their places -/

theorem filterMap_getElem?_range {α : Type} (xs : List α) :
    (List.range xs.length).filterMap (xs[·]?) = xs := by
  have hmap : (List.range xs.length).map (xs[·]?) = xs.map some := by
    apply List.ext_getElem
    · simp
    · intro i hi hi'
      rw [List.length_map, List.length_range] at hi
      simp [hi]
  have hid := List.filterMap_map (f := (xs[·]?)) (g := id) (l := List.range xs.length)
  rw [hmap] at hid
  simpa using hid.symm

theorem places_results (maxDepth : Nat) (suffixes : Nat → Source)
    (definitions : List Definition) :
    (results maxDepth suffixes definitions).map Prod.fst = List.range definitions.length := by
  rw [results, List.map_map, List.range_eq_range', ← List.zipIdx_map_snd]
  rfl

theorem pairwise_mergeSort_places (joined : List (Nat × Tool)) :
    (joined.mergeSort fun a b => a.1 ≤ b.1).Pairwise fun a b => a.1 ≤ b.1 := by
  have htrans : ∀ a b c : Nat × Tool, decide (a.1 ≤ b.1) = true → decide (b.1 ≤ c.1) = true →
      decide (a.1 ≤ c.1) = true := by
    simp only [decide_eq_true_eq]
    intro a b c
    exact Nat.le_trans
  have htotal : ∀ a b : Nat × Tool, (decide (a.1 ≤ b.1) || decide (b.1 ≤ a.1)) = true := by
    simp only [Bool.or_eq_true, decide_eq_true_eq]
    intro a b
    exact Nat.le_total a.1 b.1
  have hsorted := List.pairwise_mergeSort htrans htotal joined
  simpa only [decide_eq_true_eq] using hsorted

/-- Sorting undoes every shuffling of results whose places ascend. -/
theorem mergeSort_eq_of_perm {joined given : List (Nat × Tool)}
    (hplaces : (given.map Prod.fst).Pairwise (· < ·)) (hperm : joined.Perm given) :
    (joined.mergeSort fun a b => a.1 ≤ b.1) = given := by
  have hsorted : given.Pairwise fun a b => a.1 ≤ b.1 :=
    (List.pairwise_map.mp hplaces).imp Nat.le_of_lt
  have hmerged := (List.mergeSort_perm joined fun a b => a.1 ≤ b.1).trans hperm
  apply List.Perm.eq_of_pairwise ?_ (pairwise_mergeSort_places joined) hsorted hmerged
  intro a b ha hb hab hba
  -- No two results have one place.
  exact List.inj_on_of_nodup_map (hplaces.imp Nat.ne_of_lt) (hmerged.mem_iff.mp ha) hb
    (Nat.le_antisymm hab hba)

/-- All that is given is joined, once. -/
theorem perm_joined {finished : List Nat} {given : List (Nat × Tool)}
    (h : finished.Perm (List.range given.length)) :
    (finished.filterMap (given[·]?)).Perm given := by
  have hjoined := h.filterMap (given[·]?)
  rwa [filterMap_getElem?_range] at hjoined

/-- **The order in which tasks finish does not show.** -/
theorem convertAtOnce_eq (maxDepth : Nat) (definitions : List Definition)
    (schedule : Schedule definitions.length) :
    convertAtOnce maxDepth definitions schedule =
      (results maxDepth schedule.suffixes definitions).map Prod.snd := by
  have hplaces := places_results maxDepth schedule.suffixes definitions
  have hfinish : schedule.finished.Perm
      (List.range (results maxDepth schedule.suffixes definitions).length) := by
    rw [← List.length_map (f := Prod.fst), hplaces, List.length_range]
    exact schedule.all_finish
  unfold convertAtOnce
  dsimp only
  rw [mergeSort_eq_of_perm (hplaces ▸ List.pairwise_lt_range) (perm_joined hfinish)]

theorem definitions_convertAtOnce {maxDepth : Nat} {definitions : List Definition}
    (schedule : Schedule definitions.length) :
    (convertAtOnce maxDepth definitions schedule).map Tool.definition = definitions := by
  rw [convertAtOnce_eq, results, List.map_map, List.map_map]
  refine (List.map_congr_left fun task _ => ?_).trans (List.zipIdx_map_fst 0 definitions)
  simp only [Function.comp_apply, runTask, Tool.convert_eq]

/-! ## Up to suffixes -/

/-- The suffixes that tasks draw, in order of their places, from a place on. -/
def drawnFrom (maxDepth : Nat) (suffixes : Nat → Source) (place : Nat)
    (definitions : List Definition) : List Suffix :=
  (definitions.zipIdx place).flatMap fun (definition, place) =>
    (List.range (runTask maxDepth suffixes definition place).drawn).map (suffixes place)

/-- The suffixes that the tasks of a schedule draw, in order of their places. -/
def drawnSuffixes (maxDepth : Nat) (suffixes : Nat → Source) (definitions : List Definition) :
    List Suffix :=
  drawnFrom maxDepth suffixes 0 definitions

variable {maxDepth : Nat} {suffixes : Nat → Source} {ρ : Suffix → Suffix}

theorem drawnFrom_cons (place : Nat) (definition : Definition) (rest : List Definition) :
    drawnFrom maxDepth suffixes place (definition :: rest) =
      (List.range (runTask maxDepth suffixes definition place).drawn).map (suffixes place) ++
        drawnFrom maxDepth suffixes (place + 1) rest := by
  rw [drawnFrom, List.zipIdx_cons, List.flatMap_cons]
  rfl

/-- One task draws as often as the same conversion anywhere else. -/
theorem drawn_runTask (definition : Definition) (place : Nat) (source : Source) (position : Nat) :
    (Tool.convert ⟨source, maxDepth⟩ definition position).drawn =
      (runTask maxDepth suffixes definition place).drawn := by
  rw [runTask, Tool.convert_eq, Tool.convert_eq]
  exact Converter.drawn_convert_eq maxDepth _ _ _ _ _ _

/-- **One task gives what the conversion in turn gives**, with its own suffixes. -/
theorem runTask_eq_resuffix {definition : Definition} {place position : Nat}
    (hnodup : ((List.range (runTask maxDepth suffixes definition place).drawn).map
      (suffixes place)).Nodup)
    (hρ : ∀ k < (runTask maxDepth suffixes definition place).drawn,
      ρ (Source.counting 0 (position + k)) = suffixes place k) :
    (runTask maxDepth suffixes definition place).value =
      (Tool.convert ⟨.counting 0, maxDepth⟩ definition position).value.resuffix ρ := by
  have hdrawn : (Tool.convert ⟨.counting 0, maxDepth⟩ definition position).drawn =
      (runTask maxDepth suffixes definition place).drawn :=
    drawn_runTask definition place (.counting 0) position
  have hcount := Name.length_le_of_nodup hnodup
  rw [List.length_map, List.length_range] at hcount
  rw [runTask, Tool.convert_eq] at hnodup hρ hdrawn hcount ⊢
  rw [Tool.convert_eq] at hdrawn ⊢
  rw [Tool.resuffix]
  refine congrArg (Tool.mk definition) (Eq.symm ?_)
  dsimp only at hdrawn
  apply Converter.rename_convert_eq maxDepth
  · rw [hdrawn]
    exact Source.fresh_counting 0 position hcount
  · rwa [Source.Fresh, ← List.range_eq_range']
  · intro k hk
    rw [Nat.zero_add]
    rw [hdrawn] at hk
    exact hρ k hk

/-- **The tasks give what the conversion in turn gives**, with their own suffixes, as long as no
suffix is drawn twice. -/
theorem results_eq_resuffix (place position : Nat) (definitions : List Definition)
    (hnodup : (drawnFrom maxDepth suffixes place definitions).Nodup)
    (hρ : ∀ n suffix, (drawnFrom maxDepth suffixes place definitions)[n]? = some suffix →
      ρ (Source.counting 0 (position + n)) = suffix) :
    (definitions.zipIdx place).map
        (fun (definition, place) => (runTask maxDepth suffixes definition place).value) =
      (convertAll ⟨.counting 0, maxDepth⟩ definitions position).value.map (Tool.resuffix ρ) := by
  induction definitions generalizing place position with
  | nil => rfl
  | cons definition rest ih =>
    rw [drawnFrom_cons] at hnodup hρ
    obtain ⟨hfirst, hrest, -⟩ := List.nodup_append.mp hnodup
    have hlength : ((List.range (runTask maxDepth suffixes definition place).drawn).map
        (suffixes place)).length = (runTask maxDepth suffixes definition place).drawn := by
      rw [List.length_map, List.length_range]
    have hdrawn : (Tool.convert ⟨.counting 0, maxDepth⟩ definition position).drawn =
        (runTask maxDepth suffixes definition place).drawn :=
      drawn_runTask definition place _ position
    have hvalue : (runTask maxDepth suffixes definition place).value =
        (Tool.convert ⟨.counting 0, maxDepth⟩ definition position).value.resuffix ρ := by
      apply runTask_eq_resuffix hfirst
      intro k hk
      apply hρ k
      rw [List.getElem?_append_left (by rwa [hlength])]
      simp [hk]
    have hothers := ih (place + 1)
      (position + (Tool.convert ⟨.counting 0, maxDepth⟩ definition position).drawn) hrest <| by
        intro n suffix hn
        rw [hdrawn, Nat.add_assoc]
        apply hρ
        rw [List.getElem?_append_right (by rw [hlength]; exact Nat.le_add_right _ n), hlength,
          Nat.add_sub_cancel_left]
        exact hn
    rw [List.zipIdx_cons, List.map_cons, convertAll_cons, List.map_cons, hothers]
    dsimp only
    rw [hvalue]

/-- **However tasks run, their tools are those of converting in turn, up to suffixes**: the suffix
counted `n` is replaced by the one that the tasks draw `n`-th, in order of their places. -/
theorem convertAtOnce_eq_resuffix {definitions : List Definition}
    (schedule : Schedule definitions.length)
    (hnodup : (drawnSuffixes maxDepth schedule.suffixes definitions).Nodup)
    (hρ : ∀ n suffix, (drawnSuffixes maxDepth schedule.suffixes definitions)[n]? = some suffix →
      ρ (.ofCounter n) = suffix) :
    convertAtOnce maxDepth definitions schedule =
      (convertAll ⟨.counting 0, maxDepth⟩ definitions 0).value.map (Tool.resuffix ρ) := by
  rw [convertAtOnce_eq, results, List.map_map]
  apply results_eq_resuffix 0 0 definitions hnodup
  intro n suffix hn
  rw [Nat.zero_add, Source.counting_zero]
  exact hρ n suffix hn

end CommandLine

end ToolShape
