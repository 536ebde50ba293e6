import Vigil.Json.Reader

/-!
# Reading values of a known shape

A decoder reads a value of one shape straight from the text, so that a wrong shape is noticed where
it stands, before anything wrong further right. A record is an object with its fields in any order,
or an array of all its fields in their own order.
-/

namespace Vigil.Json

/-- Reads a value of type `α` from the front of a text; the number says how many levels may still be
opened. -/
abbrev Decoder (α : Type) := Nat → List Char → Except Fault (α × List Char)

/-- The fault of a value that stands where another shape is wanted. A scalar is read first, and what
is wrong with it counts before its shape. -/
def unwanted (text : List Char) : Fault :=
  let scalar {α : Type} (r : Except Fault α) : Fault :=
    match r with
    | .error fault => fault
    | .ok _ => .wrongShape
  match text with
  | [] => .endsEarly
  | c :: rest =>
    if c = 'n' then scalar (word ['u', 'l', 'l'] rest)
    else if c = 't' then scalar (word ['r', 'u', 'e'] rest)
    else if c = 'f' then scalar (word ['a', 'l', 's', 'e'] rest)
    else if c = '-' then scalar (numberBody false rest)
    else if c.isDigit then scalar (numberBody true (c :: rest))
    else if c = '"' then scalar (textBody rest)
    else if c = '[' ∨ c = '\x7b' then .wrongShape
    else .malformed

namespace Decoder

def value : Decoder Value := fun depth text => anyValue (text.length + 1) depth text

def text : Decoder String := fun _ text =>
  match skipSpaces text with
  | '"' :: rest => textBody rest
  | text => .error (unwanted text)

def truth : Decoder Bool := fun _ text =>
  match skipSpaces text with
  | 't' :: rest => (word ['r', 'u', 'e'] rest).map (true, ·)
  | 'f' :: rest => (word ['a', 'l', 's', 'e'] rest).map (false, ·)
  | text => .error (unwanted text)

/-- A natural number up to `bound`, written without a fraction or an exponent. -/
def natural (bound : Nat) : Decoder Nat := fun _ text =>
  let check (read : Reading Number) : Except Fault (Nat × List Char) :=
    match read with
    | .error fault => .error fault
    | .ok (.int n, rest) =>
      if 0 ≤ n ∧ n ≤ bound then .ok (n.toNat, rest) else .error .wrongShape
    | .ok (.float _, _) => .error .wrongShape
  match skipSpaces text with
  | [] => .error .endsEarly
  | c :: rest =>
    if c = '-' then check (numberBody false rest)
    else if c.isDigit then check (numberBody true (c :: rest))
    else .error (unwanted (c :: rest))

/-- A value that may be `null`, which stands for `none`. -/
def optional {α : Type} (read : Decoder α) : Decoder (Option α) := fun depth text =>
  match skipSpaces text with
  | 'n' :: rest => (word ['u', 'l', 'l'] rest).map (none, ·)
  | text => (read depth text).map fun (a, rest) => (some a, rest)

/-- A list of values, each of which `read` reads. -/
def list {α : Type} (read : Decoder α) : Decoder (List α) := fun depth text =>
  match skipSpaces text with
  | '[' :: rest =>
    if depth ≤ 1 then .error .malformed
    else
      (items (fun (found : List α) text =>
          (read (depth - 1) text).map fun (a, rest) => (a :: found, rest))
        (rest.length + 1) true [] rest).map fun (found, rest) => (found.reverse, rest)
  | text => .error (unwanted text)

/-- An object as a dictionary of what `read` reads; a repeated name keeps its last value. -/
def dict {α : Type} (read : Decoder α) : Decoder (Dict α) := fun depth text =>
  match skipSpaces text with
  | '\x7b' :: rest =>
    if depth ≤ 1 then .error .malformed
    else
      members (fun name (found : Dict α) text =>
          (colon text).bind fun text =>
            (read (depth - 1) text).map fun (a, rest) => (found.insert name a, rest))
        (rest.length + 1) true Dict.empty rest
  | text => .error (unwanted text)

end Decoder

/-- A field of a record that is being read into a draft of type `σ`. -/
structure Field (σ : Type) where
  name : String
  isSet : σ → Bool
  read : σ → Decoder σ

/-- The field `name` that `read` reads, with the way to look at it and to set it in a draft. -/
def Field.of {σ α : Type} (name : String) (read : Decoder α) (look : σ → Option α)
    (set : σ → α → σ) : Field σ where
  name := name
  isSet := fun draft => (look draft).isSome
  read := fun draft depth text =>
    (read depth text).map fun (a, rest) => (set draft a, rest)

/-- Reads one member of a record into the draft. A field that is set already and, in a strict
record, an unknown name are noticed before the colon. -/
def recordMember {σ : Type} (fields : List (Field σ)) (strict : Bool) (depth : Nat) (name : String)
    (draft : σ) (text : List Char) : Except Fault (σ × List Char) :=
  match fields.find? fun f => f.name == name with
  | some f =>
    if f.isSet draft then .error .wrongShape
    else do f.read draft depth (← colon text)
  | none =>
    if strict then .error .wrongShape
    else do
      let text ← colon text
      let rest ← skipValue (text.length + 1) text
      .ok (draft, rest)

/-- Reads the fields of a record in their order, as far as the array has items. -/
def recordItems {σ : Type} (depth : Nat) :
    List (Field σ) → Bool → σ → List Char → Except Fault (σ × List Char)
  | [], _, draft, text => .ok (draft, text)
  | f :: fields, first, draft, text => do
    match ← nextItem first text with
    | none => .ok (draft, text)
    | some text =>
      let (draft, rest) ← f.read draft depth text
      recordItems depth fields false draft rest

/-- Reads a record: an object whose unknown members are left out, unless the record is strict, or an
array with the fields in their order. `finish` refuses a draft that lacks a field. -/
def record {σ α : Type} (fields : List (Field σ)) (strict : Bool) (start : σ)
    (finish : σ → Option α) : Decoder α := fun depth text =>
  match skipSpaces text with
  | '\x7b' :: rest =>
    if depth ≤ 1 then .error .malformed
    else do
      let (draft, rest) ←
        members (recordMember fields strict (depth - 1)) (rest.length + 1) true start rest
      match finish draft with
      | some a => .ok (a, rest)
      | none => .error .wrongShape
  | '[' :: rest =>
    if depth ≤ 1 then .error .malformed
    else do
      let (draft, rest) ← recordItems (depth - 1) fields true start rest
      match finish draft with
      | some a => do .ok (a, ← closeArray rest)
      | none => .error .wrongShape
  | text => .error (unwanted text)

/-- One of a few names that `find?` knows, as a text or as an object with the name and `null`. -/
def choice {α : Type} (find? : String → Option α) : Decoder α := fun depth text =>
  let pick (name : String) : Except Fault α :=
    match find? name with
    | some a => .ok a
    | none => .error .wrongShape
  match skipSpaces text with
  | [] => .error .endsEarly
  | '"' :: rest => do
    let (name, rest) ← textBody rest
    .ok (← pick name, rest)
  | '\x7b' :: rest =>
    if depth ≤ 1 then .error .malformed
    else do
      let (name, rest) ← Decoder.text depth rest
      let a ← pick name
      match skipSpaces (← colon rest) with
      | 'n' :: rest =>
        match skipSpaces (← word ['u', 'l', 'l'] rest) with
        | [] => .error .endsEarly
        | '\x7d' :: rest => .ok (a, rest)
        | _ => .error .malformed
      | text => .error (unwanted text)
  | _ => .error .malformed

/-- Reads a whole text as one value by `read`, with nothing but spaces after it. -/
def Decoder.readAll {α : Type} (read : Decoder α) (text : String) : Except Fault α := do
  let (a, rest) ← read nestingLimit text.toList
  if (skipSpaces rest).isEmpty then .ok a else .error .malformed

end Vigil.Json
