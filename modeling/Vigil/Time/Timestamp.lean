/-!
# Instants

An instant is a whole number of nanoseconds before or after the start of the year 1970 in universal
time. It is read and shown as whole seconds, rounded down, and the nanoseconds after them.
-/

namespace Vigil

/-- An instant on the clock of the world, in nanoseconds since the start of 1970. -/
structure Timestamp where
  /-- Nanoseconds since the start of 1970, negative before it. -/
  nanos : Int
  deriving DecidableEq, Repr, Inhabited

namespace Timestamp

/-- The instant `nanos` nanoseconds after `secs` seconds. -/
def ofParts (secs : Int) (nanos : Nat) : Timestamp := ⟨secs * 1000000000 + nanos⟩

def epoch : Timestamp := ⟨0⟩

/-- The whole seconds of `t` since the start of 1970, rounded down. -/
def secs (t : Timestamp) : Int := t.nanos / 1000000000

/-- The nanoseconds of `t` after its whole seconds. -/
def subsec (t : Timestamp) : Nat := (t.nanos % 1000000000).toNat

instance : LE Timestamp := ⟨fun a b => a.nanos ≤ b.nanos⟩

instance : DecidableLE Timestamp := fun a b => inferInstanceAs (Decidable (a.nanos ≤ b.nanos))

/-- The instant `t` is made up of its seconds and of the nanoseconds after them. -/
theorem ofParts_secs_subsec (t : Timestamp) : ofParts t.secs t.subsec = t := by
  cases t with
  | mk n => simp only [ofParts, secs, subsec, mk.injEq]; omega

theorem subsec_lt (t : Timestamp) : t.subsec < 1000000000 := by
  simp only [subsec]; omega

end Timestamp
end Vigil
