import Vigil.Toml.Value

/-!
# Building tables

The lines of a document add to its tables under rules that make every value defined once: a key is
set once, a header names a table once, and a dotted key adds only to tables that have no header and
are not written in braces.
-/

namespace Vigil.Toml

/-- The entries of a table, each with its key, in the order in which they were set. -/
abbrev Entries := List (String × Value)

namespace Entries

/-- Puts `value` under `key`, in place of the one that stands there. -/
def put (entries : Entries) (key : String) (value : Value) : Entries :=
  if entries.any fun e => e.1 == key then
    entries.map fun e => if e.1 == key then (key, value) else e
  else entries ++ [(key, value)]

/-- Sets a key below the tables that a dotted key passes through, and makes those that are
missing. The table that holds the key must have come about by dotted keys. -/
def setKey (entries : Entries) : List String → Value → Option Entries
  | [], _ => none
  | [key], value =>
    match Value.lookUp entries key with
    | some _ => none
    | none => some (entries.put key value)
  | key :: path, value =>
    match Value.lookUp entries key with
    | none => do some (entries.put key (.table .dotted (← setKey [] path value)))
    | some (.table .dotted inner) => do
      some (entries.put key (.table .dotted (← setKey inner path value)))
    -- A dotted key may pass through a table that a header implies, but not end there.
    | some (.table .implied inner) =>
      if path.length = 1 then none
      else do some (entries.put key (.table .implied (← setKey inner path value)))
    | some _ => none

/-- Makes a `change` to the entries of the table at the end of a header's path. The tables on the
way are made if they are missing; of an array made by headers the last table is meant. -/
def atPath (entries : Entries) (change : Entries → Option Entries) : List String → Option Entries
  | [] => change entries
  | key :: path =>
    match Value.lookUp entries key with
    | none => do some (entries.put key (.table .implied (← atPath [] change path)))
    | some (.table .inline _) => none
    | some (.table form inner) => do
      some (entries.put key (.table form (← atPath inner change path)))
    -- Only the table that was added last is still open.
    | some (.array true items) =>
      match items.getLast? with
      | some (.table form inner) => do
        let last ← atPath inner change path
        some (entries.put key (.array true (items.dropLast ++ [.table form last])))
      | _ => none
    | some _ => none

/-- Declares the table of a header under `key`. A table may be declared once, and not after a dotted
key has made it. -/
def declareTable (entries : Entries) (key : String) : Option Entries :=
  match Value.lookUp entries key with
  | none => some (entries.put key (.table .declared []))
  | some (.table .implied inner) => some (entries.put key (.table .declared inner))
  | some _ => none

/-- Adds a table to the array under `key`, for a header in double brackets. -/
def declareItem (entries : Entries) (key : String) : Option Entries :=
  match Value.lookUp entries key with
  | none => some (entries.put key (.array true [.table .declared []]))
  | some (.array true items) =>
    some (entries.put key (.array true (items ++ [.table .declared []])))
  | some _ => none

end Entries

/-- A line of a document that says something: a setting, or a header. -/
inductive Line where
  | setting (path : List String) (value : Value)
  | header (path : List String)
  /-- The header of one more table of an array. -/
  | itemHeader (path : List String)
  deriving Repr

/-- A document that is being built: its entries, and the path of the header that was read last. -/
structure Draft where
  entries : Entries := []
  place : List String := []

/-- Adds a line to the draft `d`; a line that contradicts an earlier one is refused. -/
def Draft.add (d : Draft) : Line → Option Draft
  | .setting path value => do
    some { d with entries := ← d.entries.atPath (fun es => es.setKey path value) d.place }
  | .header path => do
    let key ← path.getLast?
    let entries ← d.entries.atPath (fun es => es.declareTable key) path.dropLast
    some { entries, place := path }
  | .itemHeader path => do
    let key ← path.getLast?
    let entries ← d.entries.atPath (fun es => es.declareItem key) path.dropLast
    some { entries, place := path }

end Vigil.Toml
