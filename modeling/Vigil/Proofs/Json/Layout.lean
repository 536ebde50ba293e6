import Vigil.Json.Reader
import Vigil.Json.Writer

/-!
# Layouts

Both written forms of a value are one way of writing with different spaces: before each item of an
array or an object and before its end, and after the colon of a member. What reads a value back
looks at neither, so it is enough to read the value in any layout.

The module introduces:

* `Layout`, the spaces of a written form;
* `Layout.render`, a value in a layout;
* `Layout.compact_eq` and `Layout.pretty_eq`, the written forms of a value as layouts;
* `Value.depth`, how deep the arrays and objects of a value nest.
-/

namespace Vigil.Json

/-- All of `cs` may stand between the parts of a text. -/
def Spaces (cs : List Char) : Prop := ∀ c ∈ cs, isSpace c = true

theorem spaces_nil : Spaces [] := fun _ h => absurd h List.not_mem_nil

theorem skipSpaces_append {cs rest : List Char} (h : Spaces cs) :
    skipSpaces (cs ++ rest) = skipSpaces rest :=
  List.dropWhile_append_of_pos h

theorem skipSpaces_cons {c : Char} {rest : List Char} (h : isSpace c = false) :
    skipSpaces (c :: rest) = c :: rest :=
  List.dropWhile_cons_of_neg (by simp [h])

/-- The spaces of a written form: where lines begin, and what stands behind a colon. Both written
forms are values in a layout, so that one reading lemma serves both. -/
structure Layout where
  /-- What stands before an item or an end, by its depth. -/
  line : Nat → List Char
  gap : List Char
  line_spaces : ∀ depth, Spaces (line depth)
  gap_spaces : Spaces gap

namespace Layout

def tight : Layout := ⟨fun _ => [], [], fun _ => spaces_nil, spaces_nil⟩

/-- A line for each item, and a space before the value of a member: the pretty form. -/
def spread : Layout where
  line := Value.newLine
  gap := [' ']
  line_spaces := by
    intro depth c h
    rcases List.mem_cons.1 h with rfl | h
    · rfl
    · rw [List.eq_of_mem_replicate h]
      rfl
  gap_spaces := by simp [Spaces, isSpace]

variable (l : Layout)

def others (depth : Nat) (pieces : List (List Char)) : List Char :=
  pieces.flatMap fun piece => ',' :: (l.line depth ++ piece)

/-- The items of an array or an object in the layout `l`, with commas between them. -/
def inside (depth : Nat) : List (List Char) → List Char
  | [] => []
  | piece :: rest => l.line depth ++ piece ++ l.others depth rest

def ending (depth : Nat) (pieces : List (List Char)) (last : Char) : List Char :=
  (if pieces.isEmpty then [] else l.line depth) ++ [last]

def enclose (depth : Nat) (first : Char) (pieces : List (List Char)) (last : Char) : List Char :=
  first :: (l.inside (depth + 1) pieces ++ l.ending depth pieces last)

mutual

/-- The value in the layout `l`, from a line at some `depth`. -/
def render (depth : Nat) : Value → List Char
  | .null => ['n', 'u', 'l', 'l']
  | .bool true => ['t', 'r', 'u', 'e']
  | .bool false => ['f', 'a', 'l', 's', 'e']
  | .number n => writeNumber n
  | .string s => writeString s
  | .array items => l.enclose depth '[' (renderItems (depth + 1) items) ']'
  | .object members => l.enclose depth '\x7b' (renderMembers (depth + 1) members) '\x7d'

def renderItems (depth : Nat) : List Value → List (List Char)
  | [] => []
  | v :: rest => render depth v :: renderItems depth rest

def renderMembers (depth : Nat) : List (String × Value) → List (List Char)
  | [] => []
  | m :: rest => renderMember depth m :: renderMembers depth rest

def renderMember (depth : Nat) : String × Value → List Char
  | (name, v) => writeString name ++ ':' :: (l.gap ++ render depth v)

end

theorem renderItems_eq_map (depth : Nat) (items : List Value) :
    l.renderItems depth items = items.map (l.render depth) := by
  induction items with
  | nil => simp [renderItems]
  | cons v rest ih => simp [renderItems, ih]

theorem renderMembers_eq_map (depth : Nat) (members : List (String × Value)) :
    l.renderMembers depth members = members.map (l.renderMember depth) := by
  induction members with
  | nil => simp [renderMembers]
  | cons m rest ih => simp [renderMembers, ih]

@[simp] theorem length_renderItems (depth : Nat) (items : List Value) :
    (l.renderItems depth items).length = items.length := by
  rw [renderItems_eq_map, List.length_map]

@[simp] theorem length_renderMembers (depth : Nat) (members : List (String × Value)) :
    (l.renderMembers depth members).length = members.length := by
  rw [renderMembers_eq_map, List.length_map]

theorem inside_cons_cons (depth : Nat) (piece next : List Char) (rest : List (List Char)) :
    l.inside depth (piece :: next :: rest) =
      l.line depth ++ piece ++ ',' :: l.inside depth (next :: rest) := by
  simp [inside, others]

@[simp] theorem inside_singleton (depth : Nat) (piece : List Char) :
    l.inside depth [piece] = l.line depth ++ piece := by
  simp [inside, others]

mutual

/-- A value on one line is the value without spaces: `compact` is the layout `tight`. -/
theorem compact_eq (depth : Nat) : ∀ v : Value, v.compact = tight.render depth v
  | .null => by simp [Value.compact, render]
  | .bool true => by simp [Value.compact, render]
  | .bool false => by simp [Value.compact, render]
  | .number _ => by simp [Value.compact, render]
  | .string _ => by simp [Value.compact, render]
  | .array items => by
    have ending : tight.ending depth (tight.renderItems (depth + 1) items) ']' = [']'] := by
      simp [Layout.ending, tight]
    simp [Value.compact, render, enclose, ending, compactItems_eq (depth + 1) items]
  | .object members => by
    have ending : tight.ending depth (tight.renderMembers (depth + 1) members) '\x7d' =
        ['\x7d'] := by
      simp [Layout.ending, tight]
    simp [Value.compact, render, enclose, ending, compactMembers_eq (depth + 1) members]

theorem compactItems_eq (depth : Nat) :
    ∀ items : List Value,
      Value.compactItems items = tight.inside depth (tight.renderItems depth items)
  | [] => by simp [Value.compactItems, renderItems, inside]
  | [v] => by
    simp [Value.compactItems, renderItems, compact_eq depth v, tight]
  | v :: w :: rest => by
    have tail := compactItems_eq depth (w :: rest)
    rw [Value.compactItems, compact_eq depth v, tail]
    · simp [renderItems, inside_cons_cons, tight]
    · simp

theorem compactMembers_eq (depth : Nat) : ∀ members : List (String × Value),
    Value.compactMembers members = tight.inside depth (tight.renderMembers depth members)
  | [] => by simp [Value.compactMembers, renderMembers, inside]
  | [m] => by
    simp [Value.compactMembers, renderMembers, compactMember_eq depth m, tight]
  | m :: n :: rest => by
    have tail := compactMembers_eq depth (n :: rest)
    rw [Value.compactMembers, compactMember_eq depth m, tail]
    · simp [renderMembers, inside_cons_cons, tight]
    · simp

theorem compactMember_eq (depth : Nat) :
    ∀ m : String × Value, Value.compactMember m = tight.renderMember depth m
  | (name, v) => by
    simp [Value.compactMember, renderMember, compact_eq depth v, tight]

end

mutual

/-- A value spread over lines is the value with a line for each item: `pretty` is the layout
`spread`. -/
theorem pretty_eq (depth : Nat) : ∀ v : Value, v.pretty depth = spread.render depth v
  | .null => by simp [Value.pretty, render]
  | .bool true => by simp [Value.pretty, render]
  | .bool false => by simp [Value.pretty, render]
  | .number _ => by simp [Value.pretty, render]
  | .string _ => by simp [Value.pretty, render]
  | .array items => by
    have ending : spread.ending depth (spread.renderItems (depth + 1) items) ']' =
        Value.closingLine depth items.isEmpty ++ [']'] := by
      simp [Layout.ending, Value.closingLine, spread, renderItems_eq_map]
    simp [Value.pretty, render, enclose, ending, prettyItems_eq (depth + 1) items]
  | .object members => by
    have ending : spread.ending depth (spread.renderMembers (depth + 1) members) '\x7d' =
        Value.closingLine depth members.isEmpty ++ ['\x7d'] := by
      simp [Layout.ending, Value.closingLine, spread, renderMembers_eq_map]
    simp [Value.pretty, render, enclose, ending, prettyMembers_eq (depth + 1) members]

theorem prettyItems_eq (depth : Nat) : ∀ items : List Value,
    Value.prettyItems depth items = spread.inside depth (spread.renderItems depth items)
  | [] => by simp [Value.prettyItems, renderItems, inside]
  | [v] => by
    simp [Value.prettyItems, renderItems, pretty_eq depth v, spread]
  | v :: w :: rest => by
    have tail := prettyItems_eq depth (w :: rest)
    rw [Value.prettyItems, pretty_eq depth v, tail]
    · simp [renderItems, inside_cons_cons, spread]
    · simp

theorem prettyMembers_eq (depth : Nat) : ∀ members : List (String × Value),
    Value.prettyMembers depth members = spread.inside depth (spread.renderMembers depth members)
  | [] => by simp [Value.prettyMembers, renderMembers, inside]
  | [m] => by
    simp [Value.prettyMembers, renderMembers, prettyMember_eq depth m, spread]
  | m :: n :: rest => by
    have tail := prettyMembers_eq depth (n :: rest)
    rw [Value.prettyMembers, prettyMember_eq depth m, tail]
    · simp [renderMembers, inside_cons_cons, spread]
    · simp

theorem prettyMember_eq (depth : Nat) :
    ∀ m : String × Value, Value.prettyMember depth m = spread.renderMember depth m
  | (name, v) => by
    simp [Value.prettyMember, renderMember, pretty_eq depth v, spread]

end

end Layout

/-! ## Values -/

namespace Value

mutual

def depth : Value → Nat
  | .array items => depthOfItems items + 1
  | .object members => depthOfMembers members + 1
  | _ => 0

def depthOfItems : List Value → Nat
  | [] => 0
  | v :: rest => max v.depth (depthOfItems rest)

def depthOfMembers : List (String × Value) → Nat
  | [] => 0
  | m :: rest => max (depthOfMember m) (depthOfMembers rest)

def depthOfMember : String × Value → Nat
  | (_, v) => v.depth

end

theorem depth_array_lt_iff {items : List Value} {n : Nat} :
    (Value.array items).depth < n ↔ 1 < n ∧ ∀ v ∈ items, v.depth < n - 1 := by
  have all (items : List Value) (m : Nat) (pos : 0 < m) :
      depthOfItems items < m ↔ ∀ v ∈ items, v.depth < m := by
    induction items with
    | nil => simpa [depthOfItems] using pos
    | cons v rest ih => rw [depthOfItems, Nat.max_lt, List.forall_mem_cons, ih]
  rw [depth]
  by_cases room : 1 < n
  · rw [← all items (n - 1) (by omega)]
    omega
  · constructor
    · omega
    · exact fun h => absurd h.1 room

theorem depth_object_lt_iff {members : List (String × Value)} {n : Nat} :
    (Value.object members).depth < n ↔ 1 < n ∧ ∀ m ∈ members, m.2.depth < n - 1 := by
  have all (members : List (String × Value)) (m : Nat) (pos : 0 < m) :
      depthOfMembers members < m ↔ ∀ e ∈ members, e.2.depth < m := by
    induction members with
    | nil => simpa [depthOfMembers] using pos
    | cons e rest ih =>
      rw [depthOfMembers, Nat.max_lt, List.forall_mem_cons, ih, depthOfMember]
  rw [depth]
  by_cases room : 1 < n
  · rw [← all members (n - 1) (by omega)]
    omega
  · constructor
    · omega
    · exact fun h => absurd h.1 room

/-- No number of the value is a binary one, at any depth: what a run writes by itself. -/
inductive Whole : Value → Prop
  | null : Whole .null
  | bool (b : Bool) : Whole (.bool b)
  | number (n : Int) : Whole (.number (.int n))
  | string (s : String) : Whole (.string s)
  | array {items : List Value} (all : ∀ v ∈ items, Whole v) : Whole (.array items)
  | object {members : List (String × Value)} (all : ∀ m ∈ members, Whole m.2) :
      Whole (.object members)

def leastWord : Int := -9223372036854775808

/-- What a value can be that is read: its objects are sorted, and its whole numbers have 64 bits. -/
inductive Regular : Value → Prop
  | null : Regular .null
  | bool (b : Bool) : Regular (.bool b)
  | whole {n : Int} (low : leastWord ≤ n) (high : n ≤ maxWord) : Regular (.number (.int n))
  | binary (x : Binary64) : Regular (.number (.float x))
  | string (s : String) : Regular (.string s)
  | array {items : List Value} (all : ∀ v ∈ items, Regular v) : Regular (.array items)
  | object {members : List (String × Value)} (sorted : SortedByKey members)
      (all : ∀ m ∈ members, Regular m.2) : Regular (.object members)

end Value
end Vigil.Json
