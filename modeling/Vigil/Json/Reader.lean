import Vigil.Json.Value

/-!
# Reading JSON

A text is read from left to right, and the first thing wrong with it decides the fault: a text that
ends too early, a text that is not JSON, or JSON of another shape than the reader asked for. Every
reader takes the characters that are left and returns a result with those left after it. Values may
nest up to a limit, and whole numbers that do not fit 64 bits are kept as binary numbers.
-/

namespace Vigil.Json

/-- What is wrong with a text, as far as callers can tell the faults apart. -/
inductive Fault where
  | malformed
  /-- The text ends before the value does. -/
  | endsEarly
  /-- The text is JSON but not of the wanted shape. -/
  | wrongShape
  deriving DecidableEq, Repr

abbrev Reading (α : Type) := Except Fault (α × List Char)

/-- How deep values may nest: the depth that `readAll` begins with. -/
def nestingLimit : Nat := 128

def isSpace (c : Char) : Bool := c == ' ' || c == '\n' || c == '\t' || c == '\r'

def skipSpaces (text : List Char) : List Char := text.dropWhile isSpace

/-- Reads the rest of a word such as `null`, character by character. -/
def word : List Char → List Char → Except Fault (List Char)
  | [], text => .ok text
  | _ :: _, [] => .error .endsEarly
  | c :: rest, d :: text => if c = d then word rest text else .error .malformed

/-! ## Texts -/

def hexValue? (c : Char) : Option Nat :=
  if '0' ≤ c ∧ c ≤ '9' then some (c.toNat - 48)
  else if 'a' ≤ c ∧ c ≤ 'f' then some (c.toNat - 87)
  else if 'A' ≤ c ∧ c ≤ 'F' then some (c.toNat - 55)
  else none

/-- The number of four digits in base sixteen at the front. Fewer than four octets are an early
end. -/
def fourHex (text : List Char) : Except Fault Nat :=
  match text with
  | a :: b :: c :: d :: _ =>
    match hexValue? a, hexValue? b, hexValue? c, hexValue? d with
    | some a, some b, some c, some d => .ok (a * 4096 + b * 256 + c * 16 + d)
    | _, _, _, _ => .error .malformed
  | _ =>
    if (text.map Char.utf8Size).foldl Nat.add 0 < 4 then .error .endsEarly else .error .malformed

/-- The character of an escape `\u`, whose digits stand at the front, with the number of characters
that it takes. A leading surrogate must be followed by the escape of a trailing one. -/
def numberedEscape (text : List Char) : Except Fault (Char × Nat) := do
  let n ← fourHex text
  -- A trailing surrogate cannot come first.
  if 0xDC00 ≤ n ∧ n ≤ 0xDFFF then .error .malformed
  else if n < 0xD800 ∨ 0xDBFF < n then .ok (Char.ofNat n, 4)
  -- A leading surrogate asks for a trailing one.
  else
    match text.drop 4 with
    | [] => .error .endsEarly
    | '\\' :: rest =>
      match rest with
      | [] => .error .endsEarly
      | 'u' :: rest =>
        let m ← fourHex rest
        if m < 0xDC00 ∨ 0xDFFF < m then .error .malformed
        else .ok (Char.ofNat (0x10000 + (n - 0xD800) * 0x400 + (m - 0xDC00)), 10)
      | _ => .error .malformed
    | _ => .error .malformed

/-- What stands at the front of the inside of a text: its closing quote, or a character. -/
inductive Front where
  | close
  /-- A character, spelled with `more` characters besides the first. -/
  | char (c : Char) (more : Nat)

/-- A short escape such as `\n`. -/
def shortEscape? (c : Char) : Option Char :=
  if c = '"' then some '"' else if c = '\\' then some '\\' else if c = '/' then some '/'
  else if c = 'b' then some '\x08' else if c = 'f' then some '\x0c' else if c = 'n' then some '\n'
  else if c = 'r' then some '\r' else if c = 't' then some '\t' else none

/-- What stands at the front of the inside of a text, from its first character and the rest. When
the text is not kept, the number of an escape need not be a character. -/
def front (keep : Bool) (c : Char) (rest : List Char) : Except Fault Front :=
  if c = '"' then .ok .close
  else if c = '\\' then
    match rest with
    | [] => .error .endsEarly
    | e :: rest =>
      if e = 'u' then
        if keep then (numberedEscape rest).map fun (c, n) => .char c (n + 1)
        else (fourHex rest).map fun _ => .char '\uFFFD' 5
      else
        match shortEscape? e with
        | some c => .ok (.char c 1)
        | none => .error .malformed
  else if c.toNat < 0x20 then .error .malformed
  else .ok (.char c 0)

/-- Reads the inside of a text and its closing quote, after leaving out `skip` characters. -/
def textInside (keep : Bool) : Nat → List Char → Reading (List Char)
  | _, [] => .error .endsEarly
  | skip + 1, _ :: rest => textInside keep skip rest
  | 0, c :: rest =>
    match front keep c rest with
    | .error fault => .error fault
    | .ok .close => .ok ([], rest)
    | .ok (.char c more) =>
      match textInside keep more rest with
      | .error fault => .error fault
      | .ok (cs, rest) => .ok (c :: cs, rest)

def textBody (text : List Char) : Reading String :=
  (textInside true 0 text).map fun (cs, rest) => (String.ofList cs, rest)

/-! ## Numbers -/

def maxWord : Nat := 18446744073709551615

/-- The largest exponent that is counted, which is more than any binary number can use. -/
def maxExponent : Nat := 2147483647

def digitValue (c : Char) : Nat := c.toNat - 48

/-- Appends digits to `significand` as long as it fits 64 bits; returns it with the number of digits
left out. -/
def extend (significand : Nat) : List Char → Nat × Nat
  | [] => (significand, 0)
  | c :: rest =>
    let next := significand * 10 + digitValue c
    if maxWord < next then (significand, rest.length + 1) else extend next rest

/-- The power of ten `10 ^ k` as a binary number; `none` when it is too large. -/
def powerOfTen (k : Nat) : Option Binary64 := Binary64.ofNat (Nat.pow 10 k)

/-- Scales the binary number `x` by a power of ten, at most `10 ^ 308` at a time downwards; each
step is rounded by itself. -/
def scale : Nat → Binary64 → Int → Except Fault Binary64
  | 0, x, _ => .ok x
  | fuel + 1, x, k =>
    if k.natAbs ≤ 308 then
      match powerOfTen k.natAbs with
      | none => .error .malformed
      | some p =>
        if 0 ≤ k then
          match x.mul p with
          | some y => .ok y
          | none => .error .malformed
        else .ok ((x.div p).getD x)
    -- Zero stays zero whatever the power.
    else if x.significand = 0 then .ok x
    else if 0 ≤ k then .error .malformed
    -- The largest power of ten that is a binary number is divided by first.
    else
      match powerOfTen 308 with
      | none => .error .malformed
      | some p => scale fuel ((x.div p).getD x) (k + 308)

/-- The number of `significand` times `10 ^ k`, with its sign. -/
def scaled (positive : Bool) (significand : Nat) (k : Int) : Except Fault Number :=
  match Binary64.ofNat significand with
  | none => .error .malformed
  | some x => (scale 8 x k).map fun y => .float { y with negative := !positive }

/-- The value of the digits of an exponent after `value`; `none` when it is too large to be
counted. -/
def exponentValue? (value : Nat) : List Char → Option Nat
  | [] => some value
  | c :: rest =>
    let next := value * 10 + digitValue c
    if maxExponent < next then none else exponentValue? next rest

def clampExponent (k : Int) : Int := max (-2147483648) (min 2147483647 k)

/-- Reads the exponent of a number, after its `e`. The number so far is `significand * 10 ^ k`. -/
def exponentPart (positive : Bool) (significand : Nat) (k : Int) (text : List Char) :
    Reading Number :=
  let (up, text) :=
    match text with
    | '+' :: rest => (true, rest)
    | '-' :: rest => (false, rest)
    | _ => (true, text)
  let digits := text.takeWhile Char.isDigit
  let rest := text.dropWhile Char.isDigit
  if digits.isEmpty then .error (if text.isEmpty then .endsEarly else .malformed)
  else
    match exponentValue? 0 digits with
    | none =>
      -- A huge exponent makes the number infinite or zero.
      if significand ≠ 0 ∧ up then .error .malformed
      else .ok (.float { Binary64.zero with negative := !positive }, rest)
    | some e =>
      (scaled positive significand (clampExponent (if up then k + e else k - e))).map (·, rest)

/-- Reads what follows the digits of a number that is no longer kept whole, which is `significand *
10 ^ k` so far. -/
def afterDigits (positive : Bool) (significand : Nat) (k : Int) (text : List Char) :
    Reading Number :=
  match text with
  | 'e' :: rest => exponentPart positive significand k rest
  | 'E' :: rest => exponentPart positive significand k rest
  | _ => (scaled positive significand k).map (·, text)

/-- Reads the fraction of a number, after its point, and puts its digits behind `significand`. -/
def fractionPart (positive : Bool) (significand : Nat) (k : Int) (text : List Char) :
    Reading Number :=
  let digits := text.takeWhile Char.isDigit
  let rest := text.dropWhile Char.isDigit
  if digits.isEmpty then .error (if text.isEmpty then .endsEarly else .malformed)
  else
    let (significand, left) := extend significand digits
    afterDigits positive significand (k - (digits.length - left : Nat)) rest

/-- The whole number `n` with its sign. Minus zero and numbers that do not fit 64 bits become binary
numbers. -/
def wholeNumber (positive : Bool) (n : Nat) : Except Fault Number :=
  if positive then .ok (.int n)
  else if 0 < n ∧ n ≤ 9223372036854775808 then .ok (.int (-(n : Int)))
  else
    match Binary64.ofNat n with
    | some x => .ok (.float { x with negative := true })
    | none => .error .malformed

/-- Reads a number, after its sign: a whole part, and perhaps a fraction and an exponent. -/
def numberBody (positive : Bool) (text : List Char) : Reading Number :=
  let digits := text.takeWhile Char.isDigit
  let rest := text.dropWhile Char.isDigit
  match digits with
  | [] => .error (if text.isEmpty then .endsEarly else .malformed)
  -- A zero at the front stands alone.
  | '0' :: _ :: _ => .error .malformed
  | _ =>
    let (significand, left) := extend 0 digits
    match rest with
    | '.' :: rest => fractionPart positive significand left rest
    | 'e' :: rest => exponentPart positive significand left rest
    | 'E' :: rest => exponentPart positive significand left rest
    | _ =>
      if 0 < left then (scaled positive significand left).map (·, rest)
      else (wholeNumber positive significand).map (·, rest)

/-! ## Lists and objects -/

/-- Moves to the next item of an array: `none` at its end, which is not read yet. -/
def nextItem (first : Bool) (text : List Char) : Except Fault (Option (List Char)) :=
  match skipSpaces text with
  | [] => .error .endsEarly
  | c :: rest =>
    if c = ']' then .ok none
    else if c = ',' ∧ ¬first then
      match skipSpaces rest with
      | [] => .error .endsEarly
      | ']' :: _ => .error .malformed
      | rest => .ok (some rest)
    else if first then .ok (some (c :: rest))
    else .error .malformed

def closeArray (text : List Char) : Except Fault (List Char) :=
  match skipSpaces text with
  | [] => .error .endsEarly
  | ']' :: rest => .ok rest
  | _ => .error .malformed

/-- Reads the items of an array and its end, each by `step`. -/
def items {σ : Type} (step : σ → List Char → Reading σ) :
    Nat → Bool → σ → List Char → Except Fault (σ × List Char)
  | 0, _, _, _ => .error .endsEarly
  | fuel + 1, first, state, text => do
    match ← nextItem first text with
    | none =>
      let rest ← closeArray text
      .ok (state, rest)
    | some text =>
      let (state, rest) ← step state text
      items step fuel false state rest

/-- Moves to the next member of an object: its name, or `none` at the end, which has been read. -/
def nextMember (first : Bool) (text : List Char) : Except Fault (Option String × List Char) :=
  match skipSpaces text with
  | [] => .error .endsEarly
  | c :: rest =>
    if c = '\x7d' then .ok (none, rest)
    else if c = ',' ∧ ¬first then
      match skipSpaces rest with
      | [] => .error .endsEarly
      | '"' :: rest => (textBody rest).map fun (name, rest) => (some name, rest)
      | _ => .error .malformed
    else if first ∧ c = '"' then (textBody rest).map fun (name, rest) => (some name, rest)
    else .error .malformed

def colon (text : List Char) : Except Fault (List Char) :=
  match skipSpaces text with
  | [] => .error .endsEarly
  | ':' :: rest => .ok rest
  | _ => .error .malformed

/-- Reads the members of an object and its end. The step gets the name of a member and the text
after the name. -/
def members {σ : Type} (step : String → σ → List Char → Reading σ) :
    Nat → Bool → σ → List Char → Except Fault (σ × List Char)
  | 0, _, _, _ => .error .endsEarly
  | fuel + 1, first, state, text => do
    match ← nextMember first text with
    | (none, rest) => .ok (state, rest)
    | (some name, rest) =>
      let (state, rest) ← step name state rest
      members step fuel false state rest

/-! ## Values -/

/-- Reads the colon and the value of the member `name`, and puts it among the sorted members in
`found`. -/
def member {α : Type} (read : List Char → Reading α) (name : String) (found : List (String × α))
    (text : List Char) : Except Fault (List (String × α) × List Char) := do
  let text ← colon text
  let (v, rest) ← read text
  .ok (insertEntry name v found, rest)

/-- Reads any value; `depth` levels may still be opened. The members of an object are sorted by
name, and a repeated name keeps its last value. -/
def anyValue : Nat → Nat → List Char → Except Fault (Value × List Char)
  | 0, _, _ => .error .endsEarly
  | fuel + 1, depth, text =>
    match skipSpaces text with
    | [] => .error .endsEarly
    | c :: rest =>
      if c = 'n' then (word ['u', 'l', 'l'] rest).map (.null, ·)
      else if c = 't' then (word ['r', 'u', 'e'] rest).map (.bool true, ·)
      else if c = 'f' then (word ['a', 'l', 's', 'e'] rest).map (.bool false, ·)
      else if c = '-' then (numberBody false rest).map fun (n, rest) => (.number n, rest)
      else if c.isDigit then (numberBody true (c :: rest)).map fun (n, rest) => (.number n, rest)
      else if c = '"' then (textBody rest).map fun (s, rest) => (.string s, rest)
      -- Only arrays and objects open a level.
      else if c = '[' then
        if depth ≤ 1 then .error .malformed
        else
          (items (fun (found : List Value) text =>
              (anyValue fuel (depth - 1) text).map fun (v, rest) => (v :: found, rest))
            fuel true [] rest).map fun (found, rest) => (.array found.reverse, rest)
      else if c = '\x7b' then
        if depth ≤ 1 then .error .malformed
        else
          (members (member (anyValue fuel (depth - 1))) fuel true [] rest).map
            fun (found, rest) => (.object found, rest)
      else .error .malformed

/-! ## Values that are not kept -/

def skipDigits (text : List Char) : Except Fault (List Char) :=
  match text with
  | c :: rest => if c.isDigit then .ok (rest.dropWhile Char.isDigit) else .error .malformed
  | [] => .error .malformed

def skipExponent (text : List Char) : Except Fault (List Char) :=
  match text with
  | '+' :: rest => skipDigits rest
  | '-' :: rest => skipDigits rest
  | _ => skipDigits text

def skipAfterDigits (text : List Char) : Except Fault (List Char) :=
  match text with
  | 'e' :: rest => skipExponent rest
  | 'E' :: rest => skipExponent rest
  | _ => .ok text

/-- Leaves out a number, after its sign. A number that ends early counts as malformed here. -/
def skipNumber (text : List Char) : Except Fault (List Char) :=
  let rest := text.dropWhile Char.isDigit
  match text.takeWhile Char.isDigit with
  | [] => .error .malformed
  | '0' :: _ :: _ => .error .malformed
  | _ =>
    match rest with
    | '.' :: rest => do skipAfterDigits (← skipDigits rest)
    | _ => skipAfterDigits rest

/-- Leaves out a value. Its nesting has no limit, its numbers may have any size, and the escapes of
its texts need not be characters. -/
def skipValue : Nat → List Char → Except Fault (List Char)
  | 0, _ => .error .endsEarly
  | fuel + 1, text =>
    match skipSpaces text with
    | [] => .error .endsEarly
    | c :: rest =>
      if c = 'n' then word ['u', 'l', 'l'] rest
      else if c = 't' then word ['r', 'u', 'e'] rest
      else if c = 'f' then word ['a', 'l', 's', 'e'] rest
      else if c = '-' then skipNumber rest
      else if c.isDigit then skipNumber (c :: rest)
      else if c = '"' then (textInside false 0 rest).map Prod.snd
      -- No levels are counted from here on.
      else if c = '[' then
        (items (fun (_ : Unit) text => (skipValue fuel text).map ((), ·)) fuel true () rest).map
          Prod.snd
      else if c = '\x7b' then skipMembers (skipValue fuel) fuel true rest
      else .error .malformed
where
  skipMembers (skip : List Char → Except Fault (List Char)) :
      Nat → Bool → List Char → Except Fault (List Char)
    | 0, _, _ => .error .endsEarly
    | fuel + 1, first, text =>
      match skipSpaces text with
      | [] => .error .endsEarly
      | c :: rest =>
        if c = '\x7d' then .ok rest
        else do
          let rest ←
            if first then .ok (c :: rest)
            else if c = ',' then .ok (skipSpaces rest)
            else .error .malformed
          -- After a comma there must be one more member, so an end is refused here.
          match rest with
          | [] => .error .endsEarly
          | '"' :: rest =>
            let (_, rest) ← textInside false 0 rest
            let rest ← colon rest
            skipMembers skip fuel false (← skip rest)
          | _ => .error .malformed

end Vigil.Json
