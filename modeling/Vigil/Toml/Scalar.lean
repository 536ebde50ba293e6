import Vigil.Decimal.Binary64
import Vigil.Time.Calendar
import Vigil.Toml.Value

/-!
# Reading single values of TOML

Texts, numbers, dates and truth values. Each reader takes the characters that are left and returns
what it read with those left after it, or nothing if they do not begin with what it reads.
-/

namespace Vigil.Toml

abbrev Reading (α : Type) := Option (α × List Char)

def isGap (c : Char) : Bool := c == ' ' || c == '\t'

def skipGap (text : List Char) : List Char := text.dropWhile isGap

/-- A character that may stand in a comment or a text: no control but the tab. -/
def isPlain (c : Char) : Bool := c == '\t' || (decide (0x20 ≤ c.toNat) && c != '\x7f')

def lineBreak? : List Char → Option (List Char)
  | '\n' :: rest => some rest
  | '\r' :: '\n' :: rest => some rest
  | _ => none

/-! ## Texts -/

def hexValue? (c : Char) : Option Nat :=
  if '0' ≤ c ∧ c ≤ '9' then some (c.toNat - 48)
  else if 'a' ≤ c ∧ c ≤ 'f' then some (c.toNat - 87)
  else if 'A' ≤ c ∧ c ≤ 'F' then some (c.toNat - 55)
  else none

def hexNumber? (value : Nat) : List Char → Option Nat
  | [] => some value
  | c :: rest => do hexNumber? (value * 16 + (← hexValue? c)) rest

/-- The character whose number has `width` digits at the front of `text`, if there is a character of
that number. -/
def numbered? (width : Nat) (text : List Char) : Option Char :=
  let digits := text.take width
  if digits.length < width then none
  else
    match hexNumber? 0 digits with
    | none => none
    | some n => if n.isValidChar then some (Char.ofNat n) else none

/-- An escape, after its backslash: the character, and how many characters spell it. -/
def escape? (text : List Char) : Option (Char × Nat) :=
  match text with
  | [] => none
  | c :: rest =>
    if c = 'b' then some ('\x08', 1) else if c = 't' then some ('\t', 1)
    else if c = 'n' then some ('\n', 1) else if c = 'f' then some ('\x0c', 1)
    else if c = 'r' then some ('\r', 1) else if c = 'e' then some ('\x1b', 1)
    else if c = '"' then some ('"', 1) else if c = '\\' then some ('\\', 1)
    else if c = 'x' then (numbered? 2 rest).map (·, 3)
    else if c = 'u' then (numbered? 4 rest).map (·, 5)
    else if c = 'U' then (numbered? 8 rest).map (·, 9)
    else none

/-- The inside of a text in double quotes on one line, after leaving out `skip` characters. -/
def basicInside : Nat → List Char → Reading (List Char)
  | _, [] => none
  | skip + 1, _ :: rest => basicInside skip rest
  | 0, c :: rest =>
    if c = '"' then some ([], rest)
    else if c = '\\' then
      match escape? rest with
      | none => none
      | some (e, n) => (basicInside n rest).map fun (cs, rest) => (e :: cs, rest)
    else if isPlain c then (basicInside 0 rest).map fun (cs, rest) => (c :: cs, rest)
    else none

/-- The inside of a text in single quotes on one line, where nothing is escaped. -/
def literalInside : List Char → Reading (List Char)
  | [] => none
  | c :: rest =>
    if c = '\'' then some ([], rest)
    else if isPlain c then (literalInside rest).map fun (cs, rest) => (c :: cs, rest)
    else none

def skipBlank : List Char → List Char
  | [] => []
  | '\r' :: '\n' :: rest => skipBlank rest
  | c :: rest => if isGap c || c == '\n' then skipBlank rest else c :: rest

/-- How many characters a break at the end of a line takes, with the blank characters after it. The
text starts after the backslash. -/
def foldedBreak? (text : List Char) : Option Nat :=
  (lineBreak? (skipGap text)).map fun rest => text.length - (skipBlank rest).length

/-- The inside of a text in three double quotes, after leaving out `skip` characters. Up to two
quotes may stand before the closing ones. -/
def multiBasicInside : Nat → List Char → Reading (List Char)
  | _, [] => none
  | skip + 1, _ :: rest => multiBasicInside skip rest
  | 0, c :: rest =>
    if c = '"' then
      -- The last three of the quotes close the text.
      match rest with
      | '"' :: '"' :: '"' :: '"' :: rest => some (['"', '"'], rest)
      | '"' :: '"' :: '"' :: rest => some (['"'], rest)
      | '"' :: '"' :: rest => some ([], rest)
      | rest => (multiBasicInside 0 rest).map fun (cs, rest) => ('"' :: cs, rest)
    else if c = '\\' then
      match escape? rest with
      | some (e, n) => (multiBasicInside n rest).map fun (cs, rest) => (e :: cs, rest)
      | none =>
        -- What is no escape may still fold a line.
        match foldedBreak? rest with
        | some n => multiBasicInside n rest
        | none => none
    else if isPlain c || c == '\n' then
      (multiBasicInside 0 rest).map fun (cs, rest) => (c :: cs, rest)
    else if c == '\r' ∧ rest.head? = some '\n' then
      (multiBasicInside 0 rest).map fun (cs, rest) => (c :: cs, rest)
    else none

def multiLiteralInside : List Char → Reading (List Char)
  | [] => none
  | c :: rest =>
    if c = '\'' then
      match rest with
      | '\'' :: '\'' :: '\'' :: '\'' :: rest => some (['\'', '\''], rest)
      | '\'' :: '\'' :: '\'' :: rest => some (['\''], rest)
      | '\'' :: '\'' :: rest => some ([], rest)
      | rest => (multiLiteralInside rest).map fun (cs, rest) => ('\'' :: cs, rest)
    else if isPlain c || c == '\n' || (c == '\r' && rest.head? == some '\n') then
      (multiLiteralInside rest).map fun (cs, rest) => (c :: cs, rest)
    else none

def afterOpening (text : List Char) : List Char := (lineBreak? text).getD text

def lineText (text : List Char) : Reading String :=
  let read :=
    match text with
    | '"' :: rest => basicInside 0 rest
    | '\'' :: rest => literalInside rest
    | _ => none
  read.map fun (cs, rest) => (String.ofList cs, rest)

/-- Reads a text of any kind, on one line or on several, by its opening quotes. -/
def anyText (text : List Char) : Reading String :=
  match text with
  | '"' :: '"' :: '"' :: rest =>
    (multiBasicInside 0 (afterOpening rest)).map fun (cs, rest) => (String.ofList cs, rest)
  | '\'' :: '\'' :: '\'' :: rest =>
    (multiLiteralInside (afterOpening rest)).map fun (cs, rest) => (String.ofList cs, rest)
  | _ => lineText text

/-! ## Numbers -/

/-- The digits of a number in which single underscores stand between digits; `isDigit` says which
characters are digits. -/
def plainDigits? (isDigit : Char → Bool) : List Char → Option (List Char)
  | [] => none
  | [c] => if isDigit c then some [c] else none
  | c :: '_' :: rest => if isDigit c then (plainDigits? isDigit rest).map (c :: ·) else none
  | c :: rest => if isDigit c then (plainDigits? isDigit rest).map (c :: ·) else none

def digitsValue (base : Nat) (digits : List Char) : Nat :=
  digits.foldl (fun n c => n * base + (hexValue? c).getD 0) 0

def signed (word : List Char) : Bool × List Char :=
  match word with
  | '+' :: rest => (false, rest)
  | '-' :: rest => (true, rest)
  | _ => (false, word)

def wholeDigits? (word : List Char) : Option (List Char) :=
  match plainDigits? Char.isDigit word with
  | some ('0' :: _ :: _) => none
  | digits => digits

def integer? (word : List Char) : Option Int :=
  let based (base : Nat) (isDigit : Char → Bool) (digits : List Char) : Option Int :=
    (plainDigits? isDigit digits).map fun ds => (digitsValue base ds : Int)
  match word with
  | '0' :: 'x' :: rest => based 16 (fun c => (hexValue? c).isSome) rest
  | '0' :: 'o' :: rest => based 8 (fun c => decide ('0' ≤ c) && decide (c ≤ '7')) rest
  | '0' :: 'b' :: rest => based 2 (fun c => c == '0' || c == '1') rest
  | _ =>
    let (negative, word) := signed word
    (wholeDigits? word).map fun ds =>
      let n : Int := digitsValue 10 ds
      if negative then -n else n

/-- The exponent of a number, if it has one; the letter is the first character of `word`. -/
def exponent? (word : List Char) : Option Int :=
  match word with
  | [] => some 0
  | _ :: rest =>
    let (negative, digits) := signed rest
    (plainDigits? Char.isDigit digits).map fun ds =>
      let n : Int := digitsValue 10 ds
      if negative then -n else n

/-- Whether `digits * 10 ^ k` is too large for a binary number. The exponent is cut off where the
answer no longer depends on it. -/
def isTooLarge (digits : List Char) (k : Int) : Bool :=
  let n := digitsValue 10 digits
  if n = 0 ∨ k < -(digits.length : Int) then false
  else if 400 < k then true
  else if 0 ≤ k then (Binary64.ofNat (n * Nat.pow 10 k.toNat)).isNone
  else (Binary64.ofQuotient false n (Nat.pow 10 (-k).toNat)).isNone

/-- A number with a fraction or an exponent, infinity, or no number: whether it is too large. -/
def float? (word : List Char) : Option Bool :=
  let (_, word) := signed word
  if word = ['i', 'n', 'f'] ∨ word = ['n', 'a', 'n'] then some false
  else
    let isExponent (c : Char) : Bool := c == 'e' || c == 'E'
    let mantissa := word.takeWhile fun c => !isExponent c
    let tail := word.dropWhile fun c => !isExponent c
    let whole := mantissa.takeWhile (· != '.')
    let fraction := mantissa.dropWhile (· != '.')
    match wholeDigits? whole, exponent? tail with
    | some ws, some k =>
      match fraction with
      | [] => if tail.isEmpty then none else some (isTooLarge ws k)
      | _ :: fs =>
        (plainDigits? Char.isDigit fs).map fun fs => isTooLarge (ws ++ fs) (k - fs.length)
    | _, _ => none

/-! ## Dates and times -/

/-- A number of exactly `width` decimal digits at the front. -/
def fixed? (width : Nat) (text : List Char) : Option (Nat × List Char) :=
  let digits := text.take width
  if digits.length = width ∧ digits.all Char.isDigit then
    some (digitsValue 10 digits, text.drop width)
  else none

def date? (text : List Char) : Option (List Char) :=
  match fixed? 4 text with
  | some (year, '-' :: rest) =>
    match fixed? 2 rest with
    | some (month, '-' :: rest) =>
      match fixed? 2 rest with
      | some (day, rest) =>
        match (Calendar.monthLengths (Calendar.isLeap year))[month - 1]? with
        | some length => if 1 ≤ month ∧ 1 ≤ day ∧ day ≤ length then some rest else none
        | none => none
      | none => none
    | _ => none
  | _ => none

def afterFraction? (text : List Char) : Option (List Char) :=
  match text with
  | '.' :: rest =>
    match rest with
    | c :: _ => if c.isDigit then some (rest.dropWhile Char.isDigit) else none
    | [] => none
  | _ => some text

def time? (text : List Char) : Option (List Char) :=
  match fixed? 2 text with
  | some (hour, ':' :: rest) =>
    match fixed? 2 rest with
    | some (minute, rest) =>
      if 23 < hour ∨ 59 < minute then none
      else
        match rest with
        | ':' :: rest =>
          match fixed? 2 rest with
          | some (second, rest) => if 60 < second then none else afterFraction? rest
          | none => none
        | _ => some rest
    | none => none
  | _ => none

def isOffset (text : List Char) : Bool :=
  let distance (rest : List Char) : Bool :=
    match fixed? 2 rest with
    | some (hour, ':' :: rest) =>
      match fixed? 2 rest with
      | some (minute, []) => decide (hour ≤ 23) && decide (minute ≤ 59)
      | _ => false
    | _ => false
  match text with
  | [] => true
  | ['Z'] => true
  | ['z'] => true
  | '+' :: rest => distance rest
  | '-' :: rest => distance rest
  | _ => false

/-- Whether a word is a date, a time or both, with a valid day of the month. -/
def isMoment (word : List Char) : Bool :=
  match date? word with
  | some [] => true
  | some (c :: rest) =>
    (c == 'T' || c == 't' || c == ' ') &&
      match time? rest with
      | some rest => isOffset rest
      | none => false
  | none =>
    match time? word with
    | some [] => true
    | _ => false

/-! ## Words -/

def isWordChar (c : Char) : Bool :=
  !(isGap c || c == '\n' || c == '\r' || c == ',' || c == ']' || c == '\x7d' || c == '#'
    || c == '=' || c == '[' || c == '\x7b' || c == '"' || c == '\'')

/-- The word at the front. A date takes a time after a single space with it. -/
def takeWord (text : List Char) : List Char × List Char :=
  let word := text.takeWhile isWordChar
  let rest := text.dropWhile isWordChar
  match rest with
  | ' ' :: c :: more =>
    if date? word = some [] ∧ c.isDigit then
      (word ++ ' ' :: (c :: more).takeWhile isWordChar, (c :: more).dropWhile isWordChar)
    else (word, rest)
  | _ => (word, rest)

/-- The value of a word that stands without quotes: a truth value, a number or a moment. -/
def ofWord? (word : List Char) : Option Value :=
  if word = ['t', 'r', 'u', 'e'] then some (.bool true)
  else if word = ['f', 'a', 'l', 's', 'e'] then some (.bool false)
  else if isMoment word then some .moment
  else
    match integer? word with
    | some n => some (.integer n)
    | none => (float? word).map .float

end Vigil.Toml
