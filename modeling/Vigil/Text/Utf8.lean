/-!
# Texts from octets

Arguments, environment values and files are octets. Read strictly, octets that are no UTF-8 are
refused; read leniently, each longest ill-formed run that could have begun a character becomes one
replacement character.
-/

namespace Vigil.Text

def isTail (b : UInt8) : Bool := decide (0x80 ≤ b) && decide (b ≤ 0xBF)

def tailBits (b : UInt8) : Nat := b.toNat % 64

/-- The bounds of the octet that may follow `a` as the first octet of a character of three
octets. -/
def secondOfThree (a : UInt8) : UInt8 × UInt8 :=
  if a = 0xE0 then (0xA0, 0xBF) else if a = 0xED then (0x80, 0x9F) else (0x80, 0xBF)

/-- The bounds of the octet that may follow `a` as the first octet of a character of four octets. -/
def secondOfFour (a : UInt8) : UInt8 × UInt8 :=
  if a = 0xF0 then (0x90, 0xBF) else if a = 0xF4 then (0x80, 0x8F) else (0x80, 0xBF)

def between (bounds : UInt8 × UInt8) (b : UInt8) : Bool :=
  decide (bounds.1 ≤ b) && decide (b ≤ bounds.2)

/-- What stands at the front of octets: a character or an ill-formed run (`none`), with the number
of octets that it takes from `rest` besides the first. -/
def frontRun (a : UInt8) (rest : List UInt8) : Option Char × Nat :=
  if a < 0x80 then (some (Char.ofNat a.toNat), 0)
  -- Two octets. The first octets 0xC0 and 0xC1 would spell what one octet can.
  else if 0xC2 ≤ a ∧ a ≤ 0xDF then
    match rest with
    | b :: _ =>
      if isTail b then (some (Char.ofNat ((a.toNat % 32) * 64 + tailBits b)), 1) else (none, 0)
    | [] => (none, 0)
  -- Three octets. An ill-formed run ends before the first octet that does not fit.
  else if 0xE0 ≤ a ∧ a ≤ 0xEF then
    match rest with
    | b :: c :: _ =>
      if between (secondOfThree a) b then
        if isTail c then
          (some (Char.ofNat ((a.toNat % 16) * 4096 + tailBits b * 64 + tailBits c)), 2)
        else (none, 1)
      else (none, 0)
    | [b] => (none, if between (secondOfThree a) b then 1 else 0)
    | [] => (none, 0)
  -- Four octets, up to the last character.
  else if 0xF0 ≤ a ∧ a ≤ 0xF4 then
    match rest with
    | b :: c :: d :: _ =>
      if between (secondOfFour a) b then
        if isTail c then
          if isTail d then
            (some (Char.ofNat ((a.toNat % 8) * 262144 + tailBits b * 4096 + tailBits c * 64
              + tailBits d)), 3)
          else (none, 2)
        else (none, 1)
      else (none, 0)
    | [b, c] => (none, if between (secondOfFour a) b then if isTail c then 2 else 1 else 0)
    | [b] => (none, if between (secondOfFour a) b then 1 else 0)
    | [] => (none, 0)
  else (none, 0)

/-- Splits octets into characters, after leaving out the first `skip` of them; `none` stands for an
ill-formed run. -/
def decodeRunsFrom : Nat → List UInt8 → List (Option Char)
  | _, [] => []
  | skip + 1, _ :: rest => decodeRunsFrom skip rest
  | 0, a :: rest => (frontRun a rest).1 :: decodeRunsFrom (frontRun a rest).2 rest

/-- Splits octets into characters, run by run; `none` stands for an ill-formed run. -/
def decodeRuns (octets : List UInt8) : List (Option Char) := decodeRunsFrom 0 octets

/-- The text that `octets` spell, if they are UTF-8 throughout. -/
def decodeUtf8 (octets : List UInt8) : Option String :=
  ((decodeRuns octets).mapM id).map String.ofList

/-- The text that octets spell, with a replacement character for each ill-formed run. -/
def decodeLenient (octets : List UInt8) : String :=
  String.ofList ((decodeRuns octets).map fun c => c.getD '\uFFFD')

def encodeUtf8 (s : String) : List UInt8 := s.toUTF8.toList

/-- A run that could have begun a character is replaced as a whole. -/
example : (decodeRuns [0x61, 0xE2, 0x82, 0x62, 0xFF]) = [some 'a', none, some 'b', none] := by
  decide

end Vigil.Text
