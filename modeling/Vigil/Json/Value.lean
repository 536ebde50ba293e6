import Vigil.Decimal.Binary64
import Vigil.Dict

/-!
# JSON values

A value as it is read from a text or built to be written. The members of an object stand in the
order in which they are written: a free value has them sorted by name, a record keeps the order of
its fields.
-/

namespace Vigil.Json

/-- A number keeps apart whole numbers and numbers with a fraction or an exponent. -/
inductive Number where
  | int (value : Int)
  /-- A number with a fraction or an exponent, or one too large to be kept whole. -/
  | float (value : Binary64)
  deriving DecidableEq, Repr, Inhabited

/-- A value as the texts of this format have them, with the members of an object in their order. -/
inductive Value where
  | null
  | bool (value : Bool)
  | number (value : Number)
  | string (value : String)
  | array (items : List Value)
  | object (members : List (String × Value))
  deriving Repr, Inhabited

namespace Value

def int (n : Int) : Value := .number (.int n)

def nat (n : Nat) : Value := .number (.int n)

/-- The object with the entries of the dictionary `d`. -/
def ofDict (d : Dict Value) : Value := .object d.entries

/-- A text, or `null` where there is none. -/
def optional (s : Option String) : Value :=
  match s with
  | some s => .string s
  | none => .null

/-- The member of the object `v` with that `name`. -/
def get? (v : Value) (name : String) : Option Value :=
  match v with
  | .object members => (members.find? fun m => m.1 == name).map Prod.snd
  | _ => none

end Value
end Vigil.Json
