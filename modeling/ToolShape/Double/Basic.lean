/-!
# Double-precision numbers, exactly

A finite double is kept as its sign, an integer significand and a power of two. Arithmetic is done
on exact ratios of natural numbers and rounded once, to the nearest double with ties to the even
significand. No machine float takes part, so each value here can be computed inside a proof.
-/

set_option autoImplicit false

namespace ToolShape

/-- The finite double `± significand · 2 ^ exponent`.

The significand has 53 bits, or fewer when the exponent is `Double.leastExponent`. -/
structure Double where
  negative : Bool
  significand : Nat
  exponent : Int
deriving DecidableEq

namespace Double

/-- The exponent of the smallest positive double. -/
def leastExponent : Int := -1074

/-- The exponent of the largest finite doubles. -/
def greatestExponent : Int := 971

/-- Zero, of either sign. -/
def zero (negative : Bool) : Double := ⟨negative, 0, leastExponent⟩

def isZero (x : Double) : Bool := x.significand == 0

def negate (x : Double) : Double := { x with negative := !x.negative }

/-- `num / den` to the nearest integer; a half goes to the even neighbour. -/
def roundRatio (num den : Nat) : Nat :=
  let quotient := num / den
  let rest := num % den
  if 2 * rest < den then quotient
  else if den < 2 * rest then quotient + 1
  else quotient + quotient % 2

/-- `num / den / 2 ^ exponent` as a ratio of integers. -/
def scaleDown (num den : Nat) (exponent : Int) : Nat × Nat :=
  if 0 ≤ exponent then (num, den * Nat.pow 2 exponent.toNat)
  else (num * Nat.pow 2 (-exponent).toNat, den)

/-- The exponent at which `num / den` has a 53-bit integer part, but not below the least one. -/
def exponentOf (num den : Nat) : Int :=
  let guess : Int := (num.log2 : Int) - (den.log2 : Int) - 53
  let (n, d) := scaleDown num den guess
  max leastExponent (if Nat.pow 2 53 ≤ n / d then guess + 1 else guess)

/-- The double nearest to `± num / den`, or nothing when that is beyond the largest one. -/
def ofRatio? (negative : Bool) (num den : Nat) : Option Double :=
  if num == 0 then some (zero negative)
  else
    let exponent := exponentOf num den
    let (n, d) := scaleDown num den exponent
    let significand := roundRatio n d
    let (significand, exponent) :=
      if significand == Nat.pow 2 53 then (Nat.pow 2 52, exponent + 1) else (significand, exponent)
    if greatestExponent < exponent then none else some ⟨negative, significand, exponent⟩

/-- The magnitude as an exact ratio. -/
def ratio (x : Double) : Nat × Nat :=
  if 0 ≤ x.exponent then (x.significand * Nat.pow 2 x.exponent.toNat, 1)
  else (x.significand, Nat.pow 2 (-x.exponent).toNat)

/-- The product, rounded; nothing when it overflows. -/
def mul? (x y : Double) : Option Double :=
  ofRatio? (x.negative != y.negative) (x.ratio.1 * y.ratio.1) (x.ratio.2 * y.ratio.2)

/-- The quotient by a number other than zero, rounded; nothing when it overflows. -/
def div? (x y : Double) : Option Double :=
  ofRatio? (x.negative != y.negative) (x.ratio.1 * y.ratio.2) (x.ratio.2 * y.ratio.1)

/-- The double nearest to a natural number; nothing when it is too large. -/
def ofNat? (n : Nat) : Option Double := ofRatio? false n 1

/-- Whether the number has no fractional part. -/
def isIntegral (x : Double) : Bool :=
  x.ratio.1 % x.ratio.2 == 0

/-! ## Reading a decimal

A decimal arrives as an integer significand and a power of ten. It is scaled by one rounded power
of ten where that power is itself a double, and by steps of `10 ^ 308` where it is not. -/

/-- The largest power of ten that is a finite double. -/
def greatestPowerOfTen : Nat := 308

/-- `x · 10 ^ exponent`, scaled in steps; nothing when the result is too large. -/
def scaleByTen? (x : Double) (exponent : Int) : Option Double :=
  if exponent.natAbs ≤ greatestPowerOfTen then do
    let power ← ofNat? (Nat.pow 10 exponent.natAbs)
    if 0 ≤ exponent then x.mul? power else x.div? power
  else if x.isZero then some x
  else if 0 ≤ exponent then none
  else do
    let power ← ofNat? (Nat.pow 10 greatestPowerOfTen)
    let smaller ← x.div? power
    smaller.scaleByTen? (exponent + greatestPowerOfTen)
termination_by exponent.natAbs
decreasing_by simp only [greatestPowerOfTen] at *; omega

/-- The double written as `± significand · 10 ^ exponent`; nothing when it is too large. -/
def ofDecimal? (negative : Bool) (significand : Nat) (exponent : Int) : Option Double := do
  let x ← ofNat? significand
  let scaled ← x.scaleByTen? exponent
  pure { scaled with negative := negative }

end Double

end ToolShape
