import ToolShape.Name.Generated
import ToolShape.Proofs.Text.Lines

/-!
# Names of one line

A generated name has its context inside, and a context is made of the name of a tool or a field by
replacing characters and changing the case of letters. Neither makes a line feed of anything else
(`Text.eq_feed_of_mem_upper`, `Text.eq_feed_of_mem_lower`), so the name of a record is on one line
whenever its context is (`Name.oneLine_generated_iff`), and a context whenever what it was made of is.

The tables of letters are long, and only their ends are looked at: no run begins so low, or maps so
far down, that a control character could come out.
-/

set_option autoImplicit false

namespace ToolShape

open Text (OneLine oneLine_append_iff)

namespace Text

/-! ## Letters -/

theorem eq_of_ofNat_eq_feed {n : Nat} (h : Char.ofNat n = '\n') : n = 10 := by
  by_cases hvalid : n.isValidChar
  · rw [Char.ofNat, dif_pos hvalid] at h
    exact congrArg Char.toNat h
  · rw [Char.ofNat, dif_neg hvalid] at h
    cases h

/-- No character of the table maps to a control character, be it alone or in a sequence. -/
structure MapsHigh (runs : List CaseRun) (sequences : List (Nat × List Nat)) : Prop where
  run : ∀ run ∈ runs, 32 ≤ (run.first : Int) + run.distance
  sequence : ∀ p ∈ sequences, ∀ n ∈ p.2, 32 ≤ n

theorem mapsHigh_upper : MapsHigh upperRuns upperSequences :=
  ⟨by decide +kernel, by decide +kernel⟩

theorem mapsHigh_lower : MapsHigh lowerRuns lowerSequences :=
  ⟨by decide +kernel, by decide⟩

theorem eq_feed_of_mem_mapCase {runs : List CaseRun} {sequences : List (Nat × List Nat)}
    (htable : MapsHigh runs sequences) {c : Char} (h : '\n' ∈ mapCase runs sequences c) :
    c = '\n' := by
  unfold mapCase at h
  split at h
  · next sequence hsequence =>
    obtain ⟨before, after, htable', -⟩ := List.lookup_eq_some_iff.mp hsequence
    obtain ⟨n, hn, hfeed⟩ := List.mem_map.mp h
    have hmem : (c.toNat, sequence) ∈ sequences := by
      rw [htable']
      exact List.mem_append_right _ List.mem_cons_self
    have hhigh := htable.sequence _ hmem n hn
    rw [eq_of_ofNat_eq_feed hfeed] at hhigh
    exact absurd hhigh (by decide)
  · split at h
    · next n hn =>
      obtain ⟨run, hrun, hmap⟩ := List.exists_of_findSome?_eq_some hn
      have hhigh := htable.run run hrun
      have hfeed := eq_of_ofNat_eq_feed (List.mem_singleton.mp h).symm
      unfold CaseRun.map? at hmap
      split at hmap
      · next hinside =>
        cases hmap
        simp only [Bool.and_eq_true, decide_eq_true_eq] at hinside
        omega
      · cases hmap
    · exact (List.mem_singleton.mp h).symm

theorem eq_feed_of_mem_upper {c : Char} (h : '\n' ∈ upper c) : c = '\n' := by
  unfold upper at h
  split at h
  · next hascii =>
    have hall : ∀ n < 128, (Char.ofNat n).toUpper = '\n' → Char.ofNat n = '\n' := by decide
    have hc := hall c.toNat hascii
    rw [Char.ofNat_toNat] at hc
    exact hc (List.mem_singleton.mp h).symm
  · exact eq_feed_of_mem_mapCase mapsHigh_upper h

theorem eq_feed_of_mem_lower {c : Char} (h : '\n' ∈ lower c) : c = '\n' := by
  unfold lower at h
  split at h
  · next hascii =>
    have hall : ∀ n < 128, (Char.ofNat n).toLower = '\n' → Char.ofNat n = '\n' := by decide
    have hc := hall c.toNat hascii
    rw [Char.ofNat_toNat] at hc
    exact hc (List.mem_singleton.mp h).symm
  · exact eq_feed_of_mem_mapCase mapsHigh_lower h

end Text

namespace Name

/-! ## Contexts -/

theorem feed_mem_of_mem_capitalize {text : List Char} {inRun : Bool}
    (h : '\n' ∈ Context.capitalize inRun text) : '\n' ∈ text := by
  induction text generalizing inRun with
  | nil => cases h
  | cons c rest ih =>
    rw [Context.capitalize] at h
    split at h
    · rcases List.mem_append.mp h with hletter | hrest
      · have hc : c = '\n' := by
          split at hletter
          · exact Text.eq_feed_of_mem_lower hletter
          · exact Text.eq_feed_of_mem_upper hletter
        exact hc ▸ List.mem_cons_self
      · exact List.mem_cons_of_mem c (ih hrest)
    · rcases List.mem_cons.mp h with hc | hrest
      · exact hc ▸ List.mem_cons_self
      · exact List.mem_cons_of_mem c (ih hrest)

theorem oneLine_ofField {fieldName : String} (h : OneLine fieldName) :
    OneLine (Context.ofField fieldName).text := by
  intro hmem
  rw [Context.ofField, Context.titleCase, String.toList_ofList] at hmem
  exact h (feed_mem_of_mem_capitalize hmem)

theorem oneLine_ofTool {toolName : String} (h : OneLine toolName) :
    OneLine (Context.ofTool toolName).text := by
  refine oneLine_append_iff.mpr ⟨?_, by decide⟩
  intro hmem
  rw [Context.sanitize, String.toList_ofList] at hmem
  obtain ⟨c, hc, hfeed⟩ := List.mem_map.mp hmem
  split at hfeed
  · cases hfeed
  · exact h (hfeed ▸ hc)

theorem oneLine_item {context : Context} (h : OneLine context.text) : OneLine context.item.text :=
  oneLine_append_iff.mpr ⟨h, by decide⟩

theorem oneLine_suffix (suffix : Suffix) : OneLine suffix.text := by
  rw [OneLine, Suffix.text, String.toList_ofList]
  intro hmem
  have hwell := suffix.wellFormed
  rw [isSuffix, Bool.and_eq_true, List.all_eq_true] at hwell
  exact absurd (hwell.2 '\n' hmem) (by decide)

/-- **A generated name is on one line exactly when its context is.** -/
theorem oneLine_generated_iff {context : Context} {suffix : Suffix} :
    OneLine (generated context suffix) ↔ OneLine context.text := by
  have hstem : OneLine stem := by decide
  have hmark : OneLine "_" := by decide
  unfold generated
  simp only [oneLine_append_iff, hstem, hmark, oneLine_suffix suffix, true_and, and_true]

end Name

end ToolShape
