import Vigil.Text.Quoted

/-!
# Identities of runs

The identity of a run is made of 128 random bits: 32 digits in base sixteen in five groups, of which
six bits are fixed to mark a random identity.
-/

namespace Vigil.RunId

def octetText (b : UInt8) : List Char :=
  let digits := Text.hexDigits b.toNat
  if digits.length < 2 then '0' :: digits else digits

/-- Fixes the bits of `octets` that mark a random identity. -/
def mark (octets : List UInt8) : List UInt8 :=
  octets.mapIdx fun i b =>
    if i = 6 then 0x40 ||| (b &&& 0x0F) else if i = 8 then 0x80 ||| (b &&& 0x3F) else b

/-- The identity that is made of sixteen random octets, in five groups of digits. -/
def ofOctets (octets : List UInt8) : String :=
  let digits := (mark octets).flatMap octetText
  let group (first count : Nat) : String := String.ofList ((digits.drop first).take count)
  String.intercalate "-" [group 0 8, group 8 4, group 12 4, group 16 4, group 20 12]

example : ofOctets (List.replicate 16 0) = "00000000-0000-4000-8000-000000000000" := by
  decide +kernel

end Vigil.RunId
