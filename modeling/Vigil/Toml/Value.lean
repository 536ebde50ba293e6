/-!
# TOML values

A document is a table. A table remembers how it came about, because that decides whether later lines
may add to it. Dates and the exact value of numbers with a fraction are checked but not kept.
-/

namespace Vigil.Toml

/-- How a table came about, which decides what may be added to it later by another line. -/
inductive Form where
  | inline
  /-- On the way to a table with a header of its own. -/
  | implied
  | declared
  /-- On the way of a dotted key. -/
  | dotted
  deriving DecidableEq, Repr

inductive Value where
  | string (value : String)
  /-- A whole number of any size; only reading it into a field bounds it. -/
  | integer (value : Int)
  /-- A number with a fraction or an exponent; `tooLarge` if no binary number of 64 bits is near. -/
  | float (tooLarge : Bool)
  | bool (value : Bool)
  | moment
  /-- A list of values; `ofTables` if it was made by headers in double brackets. -/
  | array (ofTables : Bool) (items : List Value)
  | table (form : Form) (entries : List (String × Value))
  deriving Repr, Inhabited

namespace Value

/-- The value under `key` in the entries of a table. -/
def lookUp (entries : List (String × Value)) (key : String) : Option Value :=
  (entries.find? fun e => e.1 == key).map Prod.snd

def fitsWideWord (n : Int) : Bool :=
  decide (-(Nat.pow 2 127 : Int) ≤ n) && decide (n < (Nat.pow 2 128 : Int))

mutual

/-- Whether a value can be read at all, even if nobody asks for it: its numbers must not be too
large. -/
def isReadable : Value → Bool
  | .integer n => fitsWideWord n
  | .float tooLarge => !tooLarge
  | .array _ items => areReadable items
  | .table _ entries => entriesReadable entries
  | .string _ => true
  | .bool _ => true
  | .moment => true

def areReadable : List Value → Bool
  | [] => true
  | v :: rest => v.isReadable && areReadable rest

def entriesReadable : List (String × Value) → Bool
  | [] => true
  | e :: rest => entryReadable e && entriesReadable rest

def entryReadable : String × Value → Bool
  | (_, v) => v.isReadable

end

end Value
end Vigil.Toml
