/-!
# Calendar dates

Days are counted from the first of January of year zero in the Gregorian calendar, extended to all
years. A day number determines its year, month and day of the month. The name of a run carries the
date and time of its start as a suffix of the files that it writes.
-/

namespace Vigil.Calendar

/-- How many days pass from the start of year zero to the start of `year`, in the calendar of
today. -/
def daysBeforeYear (year : Int) : Int :=
  365 * year + (year - 1) / 4 - (year - 1) / 100 + (year - 1) / 400 + 1

def epochDay : Int := 719528

/-- The year that the day `day` lies in, counted from the start of year zero. The quotient is at
most one year off. -/
def yearOf (day : Int) : Int :=
  let guess := day * 400 / 146097
  if day < daysBeforeYear guess then guess - 1
  else if daysBeforeYear (guess + 1) ≤ day then guess + 1
  else guess

/-- Whether `year` has a twenty-ninth of February. -/
def isLeap (year : Int) : Bool :=
  year % 4 == 0 && (year % 100 != 0 || year % 400 == 0)

/-- The lengths of the months of a year, which is a leap year or not as `leap` says. -/
def monthLengths (leap : Bool) : List Nat :=
  [31, if leap then 29 else 28, 31, 30, 31, 30, 31, 31, 30, 31, 30, 31]

/-- The month and the day of the month, counted from one, that lie `days` after the start of month
`month`. -/
def monthAndDay : List Nat → Nat → Nat → Nat × Nat
  | [], month, days => (month, days + 1)
  | length :: rest, month, days =>
    if days < length then (month, days + 1) else monthAndDay rest (month + 1) (days - length)

/-- A date of the calendar that is in use today, extended to all times before it. -/
structure Date where
  /-- The year, zero for the year before the year one. -/
  year : Int
  /-- The month, from one to twelve. -/
  month : Nat
  day : Nat
  deriving DecidableEq, Repr

/-- The date of the day `day`, counted from the first of January 1970. -/
def dateOf (day : Int) : Date :=
  let number := day + epochDay
  let year := yearOf number
  let (month, dayOfMonth) :=
    monthAndDay (monthLengths (isLeap year)) 1 (number - daysBeforeYear year).toNat
  ⟨year, month, dayOfMonth⟩

/-- A reading of the clock in universal time. Nanoseconds of a second and more stand for a leap
second. -/
structure Reading where
  /-- Seconds since the start of 1970. -/
  secs : Int
  /-- Nanoseconds after them. -/
  nanos : Nat
  deriving DecidableEq, Repr

namespace Reading

/-- The readings that have a date: years from `-262143` to `262142`, and leap seconds only at the
end of a minute. -/
def isValid (r : Reading) : Bool :=
  let year := (dateOf (r.secs / 86400)).year
  decide (-262143 ≤ year) && decide (year ≤ 262142)
    && (decide (r.nanos < 1000000000)
      || (decide (r.nanos < 2000000000) && r.secs % 60 == 59))

/-- The decimal digits of `n`, with zeros in front if these are fewer than `width`. -/
def padded (width n : Nat) : List Char :=
  let digits := Nat.toDigits 10 n
  List.replicate (width - digits.length) '0' ++ digits

/-- The text of `year`: at least four digits, and a sign unless it lies between 0 and 9999. -/
def yearText (year : Int) : List Char :=
  if 0 ≤ year ∧ year ≤ 9999 then padded 4 year.toNat
  else if year < 0 then '-' :: padded 4 (-year).toNat
  else '+' :: padded 4 year.toNat

/-- The suffix of the file names of a run that starts at a reading: date and time to the second. -/
def suffixChars (r : Reading) : List Char :=
  let date := dateOf (r.secs / 86400)
  let second := (r.secs % 86400).toNat
  let leap := if 1000000000 ≤ r.nanos then 1 else 0
  '_' :: yearText date.year ++ padded 2 date.month ++ padded 2 date.day
    ++ '-' :: padded 2 (second / 3600) ++ padded 2 (second / 60 % 60)
    ++ padded 2 (second % 60 + leap)

/-- The suffix of the reading `r`, if that has a date. -/
def suffix? (r : Reading) : Option String :=
  if r.isValid then some (String.ofList r.suffixChars) else none

end Reading

/-- The last day of February in a year divisible by 400, and in the year zero. -/
example : dateOf 11016 = ⟨2000, 2, 29⟩ ∧ dateOf (-719469) = ⟨0, 2, 29⟩ := by decide

example : (⟨-62167219201, 5⟩ : Reading).suffixChars = "_-00011231-235959".toList := by decide

end Vigil.Calendar
