import ToolShape.Double.Basic

/-!
# The fewest digits that read back

The decimal of a double is the shortest one that lies among the reals rounding to it, and of those
the nearest. The search asks each grid of decimals, coarsest first, for the two neighbours of the
value; all comparisons are between exact integers.
-/

set_option autoImplicit false

namespace ToolShape.Double

/-- A positive decimal: `digits · 10 ^ exponent`. -/
structure Decimal where
  digits : Nat
  exponent : Int
deriving DecidableEq

/-- The number of decimal digits of a natural number; zero has none. -/
def digitCount (n : Nat) : Nat := if n == 0 then 0 else (Nat.toDigits 10 n).length

/-- The `k` with `10 ^ k ≤ num / den < 10 ^ (k + 1)`. -/
def leadingPower (num den : Nat) : Int :=
  if den ≤ num then (digitCount (num / den) : Int) - 1
  else -(digitCount ((den - 1) / num) : Int)

/-- `num / den / 10 ^ power` as a ratio of integers. -/
def scaleTen (num den : Nat) (power : Int) : Nat × Nat :=
  if 0 ≤ power then (num, den * Nat.pow 10 power.toNat)
  else (num * Nat.pow 10 (-power).toNat, den)

/-- The reals that round to a double, in quarters of its last place: the value is `4 · significand`
quarters, and the ends belong to the interval when the significand is even. -/
structure Basin where
  below : Nat
  above : Nat
  closed : Bool

def basin (x : Double) : Basin where
  below := if x.significand == Nat.pow 2 52 && leastExponent < x.exponent then 4 * x.significand - 1
    else 4 * x.significand - 2
  above := 4 * x.significand + 2
  closed := x.significand % 2 == 0

/-- Whether `num / den`, in quarters of the last place, lies in the interval. -/
def Basin.contains (b : Basin) (num den : Nat) : Bool :=
  if b.closed then b.below * den ≤ num && num ≤ b.above * den
  else b.below * den < num && num < b.above * den

/-- The point of the grid of multiples of `10 ^ power` that reads back as `x`, if one does: of two
the nearer, and the even one of two equally near. -/
def gridPoint? (x : Double) (power : Int) : Option Nat :=
  let (num, den) := x.ratio
  let (n, d) := scaleTen num den power
  let lower := n / d
  -- A grid point `p` is `4 · significand · p · d / n` quarters of the last place.
  let fits (p : Nat) : Bool := x.basin.contains (4 * x.significand * p * d) n
  let gapBelow := n - lower * d
  let gapAbove := (lower + 1) * d - n
  let takeLower := gapBelow < gapAbove || (gapBelow == gapAbove && lower % 2 == 0)
  if fits lower && fits (lower + 1) then some (if takeLower then lower else lower + 1)
  else if fits lower then some lower
  else if fits (lower + 1) then some (lower + 1)
  else none

/-- Tries the grids from `power` downwards, at most `grids` of them. -/
def firstGrid (x : Double) : (grids : Nat) → (power : Int) → Decimal
  | 0, power => ⟨0, power⟩
  | grids + 1, power =>
    match x.gridPoint? power with
    | some digits => ⟨digits, power⟩
    | none => firstGrid x grids (power - 1)

/-- Drops trailing zeros, at most `count` of them. -/
def Decimal.trim : (count : Nat) → Decimal → Decimal
  | 0, d => d
  | count + 1, d =>
    if d.digits % 10 == 0 && d.digits != 0 then
      Decimal.trim count ⟨d.digits / 10, d.exponent + 1⟩
    else d

/-- The shortest decimal that reads back as the magnitude of a number other than zero. Seventeen
digits always do, which bounds the search. -/
def shortest (x : Double) : Decimal :=
  let (num, den) := x.ratio
  Decimal.trim 18 (x.firstGrid 18 (leadingPower num den))

end ToolShape.Double
