import Vigil.Json.Value
import Vigil.Decimal.Shortest

/-!
# Writing JSON

A value is written compactly, on one line without spaces, or spread over lines with two spaces for
each level. Texts escape quotes, backslashes and controls only. A number with a fraction keeps its
point: it is positional from a hundred-thousandth up to ten to the sixteenth, and has an exponent
with a sign elsewhere.
-/

namespace Vigil.Json

def hexDigit (n : Nat) : Char :=
  if n < 10 then Char.ofNat (48 + n) else Char.ofNat (87 + n)

/-- How the character `c` stands in a written text: a short escape, the number of a control, or the
character. -/
def escape (c : Char) : List Char :=
  if c = '"' then ['\\', '"']
  else if c = '\\' then ['\\', '\\']
  else if c = '\n' then ['\\', 'n']
  else if c = '\r' then ['\\', 'r']
  else if c = '\t' then ['\\', 't']
  else if c = '\x08' then ['\\', 'b']
  else if c = '\x0c' then ['\\', 'f']
  else if c.toNat < 0x20 then
    ['\\', 'u', '0', '0', hexDigit (c.toNat / 16), hexDigit (c.toNat % 16)]
  else [c]

/-- The text `s` between quotes, with every character as `escape` writes it. -/
def writeString (s : String) : List Char := '"' :: s.toList.flatMap escape ++ ['"']

def exponentText (e : Int) : List Char :=
  'e' :: (if e < 0 then '-' else '+') :: Nat.toDigits 10 e.natAbs

/-- The magnitude `d` of a number with a fraction, in positional or in exponent notation by its
size. -/
def writeDecimal (d : Decimal) : List Char :=
  if 0 ≤ d.exponent ∧ d.pointAt ≤ 16 then d.positional ++ ['.', '0']
  else if -5 < d.pointAt ∧ d.pointAt ≤ 16 then d.positional
  else
    match d.digits with
    | [] => []
    | [c] => c :: exponentText (d.pointAt - 1)
    | c :: rest => c :: '.' :: rest ++ exponentText (d.pointAt - 1)

def writeNumber : Number → List Char
  | .int n => if n < 0 then '-' :: Nat.toDigits 10 n.natAbs else Nat.toDigits 10 n.natAbs
  | .float x => (if x.negative then ['-'] else []) ++ writeDecimal (Decimal.shortest x)

namespace Value

mutual

/-- The value on one line, without any spaces between its parts. -/
def compact : Value → List Char
  | .null => ['n', 'u', 'l', 'l']
  | .bool true => ['t', 'r', 'u', 'e']
  | .bool false => ['f', 'a', 'l', 's', 'e']
  | .number n => writeNumber n
  | .string s => writeString s
  | .array items => '[' :: compactItems items ++ [']']
  | .object members => '\x7b' :: compactMembers members ++ ['\x7d']

def compactItems : List Value → List Char
  | [] => []
  | [v] => v.compact
  | v :: rest => v.compact ++ ',' :: compactItems rest

def compactMembers : List (String × Value) → List Char
  | [] => []
  | [m] => compactMember m
  | m :: rest => compactMember m ++ ',' :: compactMembers rest

def compactMember : String × Value → List Char
  | (name, v) => writeString name ++ ':' :: v.compact

end

def newLine (depth : Nat) : List Char := '\n' :: List.replicate (2 * depth) ' '

/-- The line of a closing bracket; an empty list has none and is closed at once. -/
def closingLine (depth : Nat) (isEmpty : Bool) : List Char :=
  if isEmpty then [] else newLine depth

mutual

/-- The value spread over lines, from a line at some `depth`. -/
def pretty (depth : Nat) : Value → List Char
  | .null => ['n', 'u', 'l', 'l']
  | .bool true => ['t', 'r', 'u', 'e']
  | .bool false => ['f', 'a', 'l', 's', 'e']
  | .number n => writeNumber n
  | .string s => writeString s
  | .array items =>
    '[' :: prettyItems (depth + 1) items ++ closingLine depth items.isEmpty ++ [']']
  | .object members =>
    '\x7b' :: prettyMembers (depth + 1) members ++ closingLine depth members.isEmpty ++ ['\x7d']

def prettyItems (depth : Nat) : List Value → List Char
  | [] => []
  | [v] => newLine depth ++ v.pretty depth
  | v :: rest => newLine depth ++ v.pretty depth ++ ',' :: prettyItems depth rest

def prettyMembers (depth : Nat) : List (String × Value) → List Char
  | [] => []
  | [m] => newLine depth ++ prettyMember depth m
  | m :: rest => newLine depth ++ prettyMember depth m ++ ',' :: prettyMembers depth rest

def prettyMember (depth : Nat) : String × Value → List Char
  | (name, v) => writeString name ++ ':' :: ' ' :: v.pretty depth

end

def compactText (v : Value) : String := String.ofList v.compact

def prettyText (v : Value) : String := String.ofList (v.pretty 0)

end Value
end Vigil.Json
