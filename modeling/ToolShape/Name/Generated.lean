import ToolShape.Name.Context
import ToolShape.Name.Suffix

/-!
# Generated names

A generated name is a fixed stem, a context, an underscore and a suffix. The context may hold
underscores of its own, so a name is taken apart at its last one.
-/

set_option autoImplicit false

namespace ToolShape.Name

/-- What every generated name starts with. -/
def stem : String := "Generated_"

/-- The name generated for a context with a suffix. -/
def generated (context : Context) (suffix : Suffix) : String :=
  stem ++ context.text ++ "_" ++ suffix.text

/-- What follows `start` in a text that begins with it. -/
def after? : (start text : List Char) → Option (List Char)
  | [], text => some text
  | _ :: _, [] => none
  | s :: start, c :: text => if s = c then after? start text else none

/-- The parts before and after the last underscore. -/
def splitLast? : List Char → Option (List Char × List Char)
  | [] => none
  | c :: rest =>
    match splitLast? rest with
    | some (before, behind) => some (c :: before, behind)
    | none => if c = '_' then some ([], rest) else none

/-- The context and the suffix of a generated name; any other name has none. -/
def parse? (name : String) : Option (Context × Suffix) := do
  let rest ← after? stem.toList name.toList
  let (context, suffix) ← splitLast? rest
  let suffix ← Suffix.ofChars? suffix
  pure (⟨String.ofList context⟩, suffix)

/-- The context of a generated name. -/
def context? (name : String) : Option Context := (parse? name).map Prod.fst

end ToolShape.Name
