import Vigil.Interval.Basic

/-!
# Timelines

A timeline is a sequence of intervals in the order in which they were added. Sorting puts it in the
order of the starts and keeps intervals with the same start as they stand.
-/

namespace Vigil

/-- Intervals in the order in which they were added. Nothing keeps them sorted but `sort`. -/
structure Timeline where
  intervals : List Interval
  deriving DecidableEq

namespace Timeline

def empty : Timeline := ⟨[]⟩

instance : Inhabited Timeline := ⟨empty⟩

/-- Adds the interval `i` at the end of `t`, wherever it starts. -/
def push (t : Timeline) (i : Interval) : Timeline := ⟨t.intervals ++ [i]⟩

/-- The intervals of `t` and then those of `u`. -/
def append (t u : Timeline) : Timeline := ⟨t.intervals ++ u.intervals⟩

instance : Append Timeline := ⟨append⟩

/-- Whether the interval `a` starts no later than `b`. -/
def startsBefore (a b : Interval) : Bool := decide (a.start ≤ b.start)

/-- The timeline in the order of the starts. Intervals that start at one instant stay in the order
in which they were added. -/
def sort (t : Timeline) : Timeline := ⟨t.intervals.mergeSort startsBefore⟩

/-- The intervals that satisfy the condition `p`, in their order. -/
def filter (t : Timeline) (p : Interval → Bool) : Timeline := ⟨t.intervals.filter p⟩

/-- The intervals of `t` that belong to a `category`, in their order. -/
def ofCategory (t : Timeline) (category : String) : Timeline :=
  t.filter fun i => i.category == category

/-- The intervals of `t` that hold at an `instant`, in their order. -/
def holdingAt (t : Timeline) (instant : Timestamp) : Timeline :=
  t.filter fun i => i.contains instant

def size (t : Timeline) : Nat := t.intervals.length

def isEmpty (t : Timeline) : Bool := t.intervals.isEmpty

def messages (t : Timeline) : List String := t.intervals.map Interval.message

/-- The written form of a timeline, which is the list of those of its intervals. There is none if an
interval has none. -/
def encode? (t : Timeline) : Option Json.Value :=
  (t.intervals.mapM Interval.encode?).map Json.Value.array

def decode : Json.Decoder Timeline := fun depth text =>
  (Json.Decoder.list Interval.decode depth text).map fun (is, rest) => (⟨is⟩, rest)

@[simp] theorem intervals_append (t u : Timeline) :
    (t ++ u).intervals = t.intervals ++ u.intervals := rfl

@[simp] theorem intervals_push (t : Timeline) (i : Interval) :
    (t.push i).intervals = t.intervals ++ [i] := rfl

end Timeline
end Vigil
