import Vigil.Interval.Basic

/-!
# Observation windows

The window of a run is the time in which the watched work ran.
-/

namespace Vigil

/-- The time from one instant to another for which a run observes the cluster. -/
structure Window where
  opened : Timestamp
  closed : Timestamp
  deriving DecidableEq, Repr, Inhabited

namespace Window

/-- The written form of the window `w`. There is none if one of its bounds lies before 1970. -/
def encode? (w : Window) : Option Json.Value := do
  some (.object [("begin", ← w.opened.encode?), ("end", ← w.closed.encode?)])

/-- The bounds of a window as far as a document has been read, either of which may be missing. -/
structure Draft where
  opened : Option Timestamp := none
  closed : Option Timestamp := none

def decode : Json.Decoder Window :=
  Json.record
    [.of "begin" Timestamp.decode Draft.opened (fun d a => { d with opened := some a }),
     .of "end" Timestamp.decode Draft.closed (fun d a => { d with closed := some a })]
    false {} (fun d => do some ⟨← d.opened, ← d.closed⟩)

end Window
end Vigil
