/-!
# Binary floating-point numbers of 64 bits

A finite number is a sign, a significand of at most 53 bits and a power of two. Every operation here
takes the exact rational result and rounds it to the nearest number, a tie going to the even
significand. Numbers beyond the largest finite one have no value.
-/

namespace Vigil

/-- A finite binary number `± significand * 2 ^ exponent` of 64 bits. The number zero keeps its
sign. -/
structure Binary64 where
  negative : Bool
  /-- The significand, below `2 ^ 53`. -/
  significand : Nat
  /-- The power of two, between `-1074` and `971`. -/
  exponent : Int
  deriving DecidableEq, Repr, Inhabited

namespace Binary64

def zero : Binary64 := ⟨false, 0, -1074⟩

/-- The quotient `num / den` over the unit `2 ^ e`, as a numerator and a denominator. -/
def overUnit (num den : Nat) (e : Int) : Nat × Nat :=
  if 0 ≤ e then (num, den * Nat.pow 2 e.toNat) else (num * Nat.pow 2 (-e).toNat, den)

/-- The power of two whose unit gives the quotient `num / den` a significand of 53 bits, unless that
unit would be smaller than the smallest one there is. -/
def unitOf (num den : Nat) : Int :=
  let guess : Int := (Nat.log2 num : Int) - (Nat.log2 den : Int) - 52
  let (n, d) := overUnit num den guess
  let unit := if n < d * Nat.pow 2 52 then guess - 1 else guess
  max unit (-1074)

/-- The quotient `num / den` rounded to the nearest whole number, a tie going to the even one. -/
def roundQuotient (num den : Nat) : Nat :=
  let q := num / den
  let r := num % den
  if 2 * r < den then q else if den < 2 * r then q + 1 else if q % 2 = 0 then q else q + 1

/-- The quotient `num / den` rounded to a binary number; `none` when it is too large. -/
def ofQuotient (negative : Bool) (num den : Nat) : Option Binary64 :=
  if num = 0 then some ⟨negative, 0, -1074⟩
  else
    let unit := unitOf num den
    let (n, d) := overUnit num den unit
    let m := roundQuotient n d
    let (m, unit) := if m = Nat.pow 2 53 then (Nat.pow 2 52, unit + 1) else (m, unit)
    if 971 < unit then none else some ⟨negative, m, unit⟩

/-- The natural number `n` rounded to a binary number; `none` when it is too large. -/
def ofNat (n : Nat) : Option Binary64 := ofQuotient false n 1

/-- The exact magnitude of `x`, as a numerator and a denominator. -/
def magnitude (x : Binary64) : Nat × Nat :=
  if 0 ≤ x.exponent then (x.significand * Nat.pow 2 x.exponent.toNat, 1)
  else (x.significand, Nat.pow 2 (-x.exponent).toNat)

/-- The sum of the magnitudes of `x` and `y`, rounded; the result has no sign. -/
def addMagnitudes (x y : Binary64) : Option Binary64 :=
  let (a, b) := x.magnitude
  let (c, d) := y.magnitude
  ofQuotient false (a * d + c * b) (b * d)

/-- The product of `x` and `y`, rounded; `none` when it is too large. -/
def mul (x y : Binary64) : Option Binary64 :=
  let (a, b) := x.magnitude
  let (c, d) := y.magnitude
  ofQuotient (x.negative != y.negative) (a * c) (b * d)

/-- The quotient of `x` and `y`, rounded; `none` also when the divisor is zero. -/
def div (x y : Binary64) : Option Binary64 :=
  let (a, b) := x.magnitude
  let (c, d) := y.magnitude
  if c = 0 then none else ofQuotient (x.negative != y.negative) (a * d) (b * c)

def neg (x : Binary64) : Binary64 := { x with negative := !x.negative }

/-- A third rounds to the nearest number of 53 bits. -/
example : ofQuotient false 1 3 = some ⟨false, 6004799503160661, -54⟩ := by decide +kernel

/-- The smallest positive number has one bit, and half of it goes to zero, the even neighbour. -/
example : ofQuotient false 1 (2 ^ 1074) = some ⟨false, 1, -1074⟩ ∧
    ofQuotient false 1 (2 ^ 1075) = some zero := by decide +kernel

end Binary64
end Vigil
