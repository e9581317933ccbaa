import ToolShape.Tool.Basic

/-!
# Conversion tasks

Definitions are converted one after another, or by a task each. Tasks run at the same time and take
suffixes as they come: any draw may get any suffix, and any task may finish first. A task remembers
the place of its definition, and by that the tools are put back in order.
-/

set_option autoImplicit false

namespace ToolShape.CommandLine

open Tool (Definition)

/-- Converts definitions, from first to last. -/
def convertAll (converter : Converter) : List Definition → Conversion (List Tool)
  | [] => pure []
  | definition :: rest => do
    let tool ← Tool.convert converter definition
    let others ← convertAll converter rest
    return tool :: others

/-- How so many tasks run. -/
structure Schedule (count : Nat) where
  /-- The suffix of each draw of each task. -/
  suffixes : (task : Nat) → Name.Source
  /-- The tasks in the order in which they finish. -/
  finished : List Nat
  all_finish : finished.Perm (List.range count)

/-- The tasks take turns at drawing, and finish in order. -/
def Schedule.inTurns (random : Name.Source) (count : Nat) : Schedule count where
  suffixes task position := random (position * count + task)
  finished := List.range count
  all_finish := .refl _

/-- One task. Its draws are its own, and counted from its start. -/
def runTask (maxDepth : Nat) (suffixes : Nat → Name.Source) (definition : Definition)
    (place : Nat) : Outcome Tool :=
  Tool.convert ⟨suffixes place, maxDepth⟩ definition 0

/-- What the tasks give, each with its place. -/
def results (maxDepth : Nat) (suffixes : Nat → Name.Source) (definitions : List Definition) :
    List (Nat × Tool) :=
  definitions.zipIdx.map fun (definition, place) =>
    (place, (runTask maxDepth suffixes definition place).value)

/-- Converts definitions by a task each, and sorts the tools by place once all tasks have
finished. -/
def convertAtOnce (maxDepth : Nat) (definitions : List Definition)
    (schedule : Schedule definitions.length) : List Tool :=
  let given := results maxDepth schedule.suffixes definitions
  let joined := schedule.finished.filterMap (given[·]?)
  (joined.mergeSort fun a b => a.1 ≤ b.1).map Prod.snd

end ToolShape.CommandLine
