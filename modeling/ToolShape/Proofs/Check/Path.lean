import ToolShape.Check.Issue
import Mathlib.Data.List.Nodup
import Std.Data.String.ToNat

/-!
# Paths and the places they name

A path writes a place down with a slash before each step, and so forgets which steps are fields and
which are items. What is left are the keys of the place, and as long as no key holds a slash of its
own they are read back from the path.

> **The segments of a path are the keys of its place** (`Place.segments_path`).
-/

set_option autoImplicit false

namespace ToolShape

/-- What a step is called in a path. -/
def Step.key : Step → String
  | .field name => name
  | .item index => toString index

namespace Place

/-- What the steps of a place are called, from the top. -/
def keys (place : Place) : List String := place.map Step.key

/-- What stands behind each slash of a path. -/
def segments (path : String) : List String :=
  (path.toList.splitOn '/').tail.map String.ofList

@[simp] theorem keys_nil : keys [] = [] := rfl

@[simp] theorem keys_cons (step : Step) (place : Place) :
    keys (step :: place) = step.key :: keys place := rfl

theorem stepText_eq (step : Step) : stepText step = "/" ++ step.key := by
  cases step <;> rfl

theorem toList_path (place : Place) :
    place.path.toList = place.keys.flatMap fun key => '/' :: key.toList := by
  rw [path, String.toList_join, List.flatMap_map, keys, List.flatMap_map]
  refine List.flatMap_congr fun step _ => ?_
  rw [stepText_eq, String.toList_append]
  rfl

/-- Keys without slashes are cut out of a text where they were put. -/
theorem splitOn_slash (front : List Char) (hfront : '/' ∉ front) {keys : List String}
    (hkeys : ∀ key ∈ keys, '/' ∉ key.toList) :
    (front ++ keys.flatMap fun key => '/' :: key.toList).splitOn '/' =
      front :: keys.map String.toList := by
  induction keys generalizing front with
  | nil => rw [List.flatMap_nil, List.append_nil, List.splitOn_eq_singleton hfront, List.map_nil]
  | cons key rest ih =>
    rw [List.forall_mem_cons] at hkeys
    rw [List.flatMap_cons, List.cons_append, List.splitOn_append_cons_self_of_not_mem hfront,
      ih key.toList hkeys.1 hkeys.2, List.map_cons]

/-- **The keys of a place are read back from its path.** -/
theorem segments_path {place : Place} (h : ∀ key ∈ place.keys, '/' ∉ key.toList) :
    segments place.path = place.keys := by
  have hsplit := splitOn_slash [] List.not_mem_nil h
  rw [List.nil_append, ← toList_path] at hsplit
  rw [segments, hsplit, List.tail_cons, List.map_map]
  exact (List.map_congr_left fun key _ => String.ofList_toList).trans (List.map_id _)

/-- An index has no slash in it. -/
theorem slash_not_mem_key_item (index : Nat) : '/' ∉ (Step.item index).key.toList := by
  intro h
  rw [Step.key, Nat.toString_eq_repr, Nat.repr_eq_ofList_toDigits, String.toList_ofList] at h
  have hdigit := Nat.isDigit_of_mem_toDigits (by decide) (by decide) h
  exact absurd hdigit (by decide)

/-- Different indices are called differently. -/
theorem key_item_inj {i j : Nat} (h : (Step.item i).key = (Step.item j).key) : i = j := by
  rw [Step.key, Step.key, Nat.toString_eq_repr, Nat.toString_eq_repr] at h
  exact Nat.repr_inj.mp h

end Place

end ToolShape
