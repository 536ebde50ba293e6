import Vigil.Text.Unseen

/-!
# Quoted texts

A text in a diagnostic stands between double quotes. A quote and a backslash get a backslash before
them, the usual controls have short names, and characters without a form of their own are written
by number, so that two texts never look the same.
-/

namespace Vigil.Text

/-- The digits of `n` in base sixteen, in lower case and without leading zeros. -/
def hexDigits (n : Nat) : List Char := Nat.toDigits 16 n

/-- How the character `c` stands in a quoted text: escaped, by its number if it is unseen, or as it
is. -/
def quoteChar (c : Char) : List Char :=
  if c = '\x00' then ['\\', '0']
  else if c = '\t' then ['\\', 't']
  else if c = '\r' then ['\\', 'r']
  else if c = '\n' then ['\\', 'n']
  else if c = '"' then ['\\', '"']
  else if c = '\\' then ['\\', '\\']
  else if isUnseen c then ['\\', 'u', '\x7b'] ++ hexDigits c.toNat ++ ['\x7d']
  else [c]

/-- The text `s` between double quotes, with every character as `quoteChar` writes it. -/
def quoted (s : String) : String :=
  String.ofList ('"' :: s.toList.flatMap quoteChar ++ ['"'])

end Vigil.Text
