import Vigil.Decimal.Binary64

/-!
# Fewest decimal digits

The decimal text of a binary number uses the fewest digits that still read back as the same number;
of two such texts of the same length the nearer one wins. The search tests, for one digit, two
digits and so on, the two neighbours of the exact value on that decimal grid.
-/

namespace Vigil

/-- A positive decimal number: `digits`, read as a whole number, times ten to the `exponent`. -/
structure Decimal where
  /-- The digits, without a zero at either end unless the number is zero. -/
  digits : List Char
  /-- The power of ten of the last digit. -/
  exponent : Int
  deriving DecidableEq, Repr

namespace Decimal

def pointAt (d : Decimal) : Int := d.digits.length + d.exponent

/-- The power of ten of the first digit of `num / den`, looking down from `10 ^ (-j)`. -/
def firstPowerBelow (num den : Nat) : Nat → Nat → Int
  | 0, j => -(j : Int)
  | fuel + 1, j =>
    if den ≤ num * Nat.pow 10 j then -(j : Int) else firstPowerBelow num den fuel (j + 1)

/-- The power of ten of the first digit of the positive quotient `num / den`. -/
def firstPower (num den : Nat) : Int :=
  if den ≤ num then ((Nat.toDigits 10 (num / den)).length : Int) - 1
  else firstPowerBelow num den 400 1

/-- A whole number of units of `10 ^ k`, over the denominator `den` (times `10 ^ (-k)` if `k` is
negative); `(x, s)` means that the exact value is to be scaled by `s` before comparing. -/
def onGrid (d den : Nat) (k : Int) : Nat × Nat :=
  if 0 ≤ k then (d * den * Nat.pow 10 k.toNat, 1) else (d * den, Nat.pow 10 (-k).toNat)

/-- The reals that round to one binary number, as an interval over a common denominator `den`. -/
structure Rounding where
  value : Nat
  /-- The lower end of the interval that rounds to the value. -/
  low : Nat
  high : Nat
  den : Nat
  /-- Whether the ends themselves round to the value. -/
  closed : Bool

/-- The interval of reals that round to the number `x`, whose significand is not zero. -/
def Rounding.of (x : Binary64) : Rounding :=
  let up := Nat.pow 2 x.exponent.toNat
  let down := Nat.pow 2 (-x.exponent).toNat
  let belowIsCloser := x.significand = Nat.pow 2 52 ∧ -1074 < x.exponent
  { value := 4 * x.significand * up
    low := 4 * x.significand * up - (if belowIsCloser then 1 else 2) * up
    high := 4 * x.significand * up + 2 * up
    den := 4 * down
    closed := x.significand % 2 = 0 }

/-- Whether the grid point `d * 10 ^ k` reads back as the value of `r`. -/
def Rounding.holds (r : Rounding) (d : Nat) (k : Int) : Bool :=
  let (point, s) := onGrid d r.den k
  if r.closed then decide (r.low * s ≤ point) && decide (point ≤ r.high * s)
  else decide (r.low * s < point) && decide (point < r.high * s)

/-- The better of the two points of the grid `10 ^ k` next to the value, if one of them reads back
as it. -/
def Rounding.best? (r : Rounding) (k : Int) : Option Nat :=
  let (unit, s) := onGrid 1 r.den k
  let d := r.value * s / unit
  let rest := r.value * s % unit
  match r.holds d k, r.holds (d + 1) k with
  | true, true =>
    if 2 * rest < unit then some d else if unit < 2 * rest then some (d + 1)
    else if d % 2 = 0 then some d else some (d + 1)
  | true, false => some d
  | false, true => some (d + 1)
  | false, false => none

/-- The first grid with a point that reads back as the value, from `n` digits on; the fuel bounds
how fine the grid may be. -/
def Rounding.search (r : Rounding) (power : Int) : Nat → Nat → Nat × Int
  | 0, n => (r.value * Nat.pow 10 n / r.den, -n)
  | fuel + 1, n =>
    match r.best? (power - n + 1) with
    | some d => (d, power - n + 1)
    | none => r.search power fuel (n + 1)

/-- The decimal number `d * 10 ^ k`, with the zeros at the end of its digits moved into the
exponent. -/
def ofNat (d : Nat) (k : Int) : Decimal :=
  let reversed := (Nat.toDigits 10 d).reverse
  let kept := reversed.dropWhile (· == '0')
  if kept.isEmpty then ⟨['0'], 0⟩
  else ⟨kept.reverse, k + (reversed.length - kept.length : Nat)⟩

/-- The shortest decimal number that reads back as the magnitude of `x`. -/
def shortest (x : Binary64) : Decimal :=
  if x.significand = 0 then ⟨['0'], 0⟩
  else
    let r := Rounding.of x
    let (d, k) := r.search (firstPower r.value r.den) 17 1
    ofNat d k

/-- The number `d` in positional notation, with no decimal point in a whole number. -/
def positional (d : Decimal) : List Char :=
  if 0 ≤ d.exponent then d.digits ++ List.replicate d.exponent.toNat '0'
  else if 0 < d.pointAt then
    d.digits.take d.pointAt.toNat ++ '.' :: d.digits.drop d.pointAt.toNat
  else '0' :: '.' :: List.replicate (-d.pointAt).toNat '0' ++ d.digits

/-- A third takes sixteen digits. -/
example : (shortest ⟨false, 6004799503160661, -54⟩) = ⟨"3333333333333333".toList, -16⟩ := by
  decide +kernel

example : shortest ⟨false, 1, -1074⟩ = ⟨['5'], -324⟩ := by decide +kernel

end Decimal
end Vigil
