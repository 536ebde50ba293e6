import Vigil.Decimal.Shortest

/-!
# Spans of time

A span is a whole number of nanoseconds. Diagnostics show it in the largest unit that gives a whole
part, and messages about deadlines show its seconds as the shortest decimal number.
-/

namespace Vigil

/-- A span of time, in whole `nanos`, as the host measures it. -/
structure Duration where
  nanos : Nat
  deriving DecidableEq, Repr, Inhabited

namespace Duration

/-- The span of `secs` whole seconds. -/
def ofSecs (secs : Nat) : Duration := ⟨secs * 1000000000⟩

/-- The whole seconds of the span `d`, rounded down. -/
def secs (d : Duration) : Nat := d.nanos / 1000000000

/-- The nanoseconds of `d` after its whole seconds. -/
def subsec (d : Duration) : Nat := d.nanos % 1000000000

/-- The whole milliseconds that cover the span `d`, which is the number rounded up. -/
def millisUp (d : Duration) : Nat := (d.nanos + 999999) / 1000000

/-- The digits of the fraction `part`, which has `places` decimal places, without zeros at its
end. -/
def fractionText (part places : Nat) : List Char :=
  let digits := Nat.toDigits 10 part
  let padded := List.replicate (places - digits.length) '0' ++ digits
  match (padded.reverse.dropWhile (· == '0')).reverse with
  | [] => []
  | kept => '.' :: kept

/-- The span `d` in the largest unit with a whole part, as diagnostics show it. -/
def debugText (d : Duration) : String :=
  let whole (n : Nat) := Nat.toDigits 10 n
  String.ofList <|
    if 0 < d.secs then whole d.secs ++ fractionText d.subsec 9 ++ ['s']
    else if 1000000 ≤ d.nanos then
      whole (d.nanos / 1000000) ++ fractionText (d.nanos % 1000000) 6 ++ ['m', 's']
    else if 1000 ≤ d.nanos then
      whole (d.nanos / 1000) ++ fractionText (d.nanos % 1000) 3 ++ ['µ', 's']
    else whole d.nanos ++ ['n', 's']

/-- The seconds of a span as a binary number: the whole seconds and the nanoseconds over `10 ^ 9`
are rounded on their own, and then their sum. -/
def binarySeconds (d : Duration) : Option Binary64 := do
  let whole ← Binary64.ofNat d.secs
  let part ← Binary64.ofQuotient false d.subsec 1000000000
  whole.addMagnitudes part

/-- The seconds of a span in positional notation, with the fewest digits that read back. -/
def secondsText (d : Duration) : String :=
  match d.binarySeconds with
  | some x => String.ofList (Decimal.shortest x).positional
  | none => toString d.secs

example : (debugText ⟨1500000⟩) = "1.5ms" := by decide +kernel

example : secondsText ⟨333333333⟩ = "0.333333333" := by decide +kernel

end Duration
end Vigil
