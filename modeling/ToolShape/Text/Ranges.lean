/-!
# Classes of characters

A class is a list of inclusive ranges of code points, in increasing order.
-/

set_option autoImplicit false

namespace ToolShape.Text

/-- A class of characters: inclusive ranges of code points. -/
abbrev Ranges := List (Nat × Nat)

/-- Whether a character lies in one of the ranges. -/
def Ranges.contains (ranges : Ranges) (c : Char) : Bool :=
  ranges.any fun (first, last) => first ≤ c.toNat && c.toNat ≤ last

end ToolShape.Text
