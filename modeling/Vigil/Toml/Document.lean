import Vigil.Toml.Scalar
import Vigil.Toml.Table

/-!
# Reading TOML documents

A document is a sequence of lines: settings, headers, comments and empty lines. Arrays and tables in
braces may spread over lines and end in a comma, and nest up to a limit.
-/

namespace Vigil.Toml

/-- How deep arrays and tables in braces may nest: the limit of `value`. -/
def nestingLimit : Nat := 80

/-- Leaves out a comment, up to the end of its line; a control in it is refused. -/
def skipComment? (text : List Char) : Option (List Char) :=
  match text with
  | '#' :: rest =>
    let rest := rest.dropWhile isPlain
    match rest with
    | [] => some []
    | c :: _ => if c = '\n' ∨ (lineBreak? rest).isSome then some rest else none
  | _ => some text

def isBare (c : Char) : Bool :=
  (decide (c.toNat < 128) && c.isAlphanum) || c == '-' || c == '_'

/-- Reads one part of a key, which may stand in quotes. -/
def keyPart (text : List Char) : Reading String :=
  match text with
  | [] => none
  | c :: _ =>
    if c = '"' ∨ c = '\'' then lineText text
    else
      let name := text.takeWhile isBare
      if name.isEmpty then none else some (String.ofList name, text.dropWhile isBare)

/-- Reads a key: parts with dots between them, each by `keyPart`. -/
def key : Nat → List Char → Reading (List String)
  | 0, _ => none
  | fuel + 1, text =>
    match keyPart (skipGap text) with
    | none => none
    | some (part, rest) =>
      match skipGap rest with
      | '.' :: rest => (key fuel rest).map fun (path, rest) => (part :: path, rest)
      | rest => some ([part], rest)

/-- Leaves out spaces, line breaks and comments between the parts of an array or a table in
braces. -/
def skipFiller? : Nat → List Char → Option (List Char)
  | 0, _ => none
  | fuel + 1, text =>
    match skipGap text with
    | [] => some []
    | c :: rest =>
      if c = '#' then (skipComment? (c :: rest)).bind (skipFiller? fuel)
      else if c = '\n' ∨ c = '\r' then (lineBreak? (c :: rest)).bind (skipFiller? fuel)
      else some (c :: rest)

/-- Reads what stands between two brackets, of which `close` is the second: items with commas
between them, and perhaps one more comma. Each item is read by `step`. -/
def itemsInside {σ : Type} (close : Char) (step : σ → List Char → Option (σ × List Char)) :
    Nat → σ → List Char → Option (σ × List Char)
  | 0, _, _ => none
  | fuel + 1, state, text => do
    match ← skipFiller? (text.length + 1) text with
    | [] => none
    | c :: rest =>
      if c = close then some (state, rest)
      else
        let (state, rest) ← step state (c :: rest)
        -- After an item there is a comma or the end.
        match ← skipFiller? (rest.length + 1) rest with
        | [] => none
        | c :: rest =>
          if c = close then some (state, rest)
          else if c = ',' then itemsInside close step fuel state rest
          else none

/-- Reads a value; `depth` levels may still be opened. -/
def value : Nat → List Char → Option (Value × List Char)
  | depth, text =>
    match text with
    | [] => none
    | c :: rest =>
      if c = '"' ∨ c = '\'' then (anyText text).map fun (s, rest) => (.string s, rest)
      else if c = '[' then
        match depth with
        | 0 => none
        | depth + 1 =>
          (itemsInside ']' (fun (found : List Value) text =>
              (value depth text).map fun (v, rest) => (v :: found, rest))
            (rest.length + 1) [] rest).map fun (found, rest) => (.array false found.reverse, rest)
      else if c = '\x7b' then
        match depth with
        | 0 => none
        | depth + 1 =>
          (itemsInside '\x7d' (fun (found : Entries) text =>
              -- A table in braces is closed to later lines, but its own keys may be dotted.
              match key (text.length + 1) text with
              | some (path, '=' :: rest) =>
                match value depth (skipGap rest) with
                | some (v, rest) => (found.setKey path v).map (·, rest)
                | none => none
              | _ => none)
            (rest.length + 1) [] rest).map fun (found, rest) => (.table .inline found, rest)
      -- Everything else is a single word: a number, a date or a truth value.
      else
        let (word, rest) := takeWord text
        (ofWord? word).map (·, rest)

/-- Reads the end of a line: a comment or nothing, and a line break unless the document ends. -/
def endOfLine? (text : List Char) : Option (List Char) :=
  match skipComment? (skipGap text) with
  | none => none
  | some [] => some []
  | some rest => lineBreak? rest

/-- Reads the path of a header and its closing `brackets`. -/
def headerPath (brackets : List Char) (text : List Char) : Reading (List String) :=
  match key (text.length + 1) text with
  | some (path, rest) =>
    if brackets.isPrefixOf rest then some (path, rest.drop brackets.length) else none
  | none => none

/-- Reads one line that is not empty: a header, a header in double brackets, or a key with its
value. -/
def line (text : List Char) : Reading Line :=
  match text with
  | '[' :: '[' :: rest =>
    (headerPath [']', ']'] rest).map fun (path, rest) => (.itemHeader path, rest)
  | '[' :: rest => (headerPath [']'] rest).map fun (path, rest) => (.header path, rest)
  | _ =>
    match key (text.length + 1) text with
    | some (path, '=' :: rest) =>
      (value nestingLimit (skipGap rest)).map fun (v, rest) => (.setting path v, rest)
    | _ => none

/-- Reads the lines of a document into a draft, one after the other, by `Draft.add`. -/
def lines : Nat → Draft → List Char → Option Draft
  | 0, _, _ => none
  | fuel + 1, draft, text =>
    match skipGap text with
    | [] => some draft
    | c :: rest =>
      if c = '#' ∨ c = '\n' ∨ c = '\r' then do lines fuel draft (← endOfLine? (c :: rest))
      else do
        let (read, rest) ← line (c :: rest)
        lines fuel (← draft.add read) (← endOfLine? rest)

/-- The table of the document `text`. A byte order mark at its front is left out. -/
def parse? (text : String) : Option Entries :=
  let text :=
    match text.toList with
    | '\uFEFF' :: rest => rest
    | text => text
  (lines (text.length + 1) {} text).map Draft.entries

end Vigil.Toml
