/-!
# Ending a run from outside

A run listens to two switches: one ends the observation window, the other cancels the run. Once
thrown, a switch stays thrown. Every signal goes one step further: it ends the window, then cancels
the run, and from then on forces cleanup.
-/

namespace Vigil

/-- The two switches of a run that signals and others throw. No function here takes one back. -/
structure Controls where
  /-- Whether the observation window is to end. -/
  windowEnded : Bool := false
  runCancelled : Bool := false
  deriving DecidableEq, Repr, Inhabited

/-- What a signal does to a run. Each of these steps goes further than the one before. -/
inductive ShutdownStep where
  | endWindow
  | cancelRun
  | forceCleanup
  deriving DecidableEq, Repr

def ShutdownStep.debugName : ShutdownStep → String
  | endWindow => "EndWorkload"
  | cancelRun => "CancelRun"
  | forceCleanup => "ForceCleanup"

namespace Controls

/-- The step that the next signal takes, given the switches `c` that it finds. -/
def nextStep (c : Controls) : ShutdownStep :=
  if !c.windowEnded then .endWindow
  else if !c.runCancelled then .cancelRun
  else .forceCleanup

/-- The switches once the observation window is to end; the run itself goes on. -/
def endWindow (c : Controls) : Controls := { c with windowEnded := true }

/-- The switches once the run is cancelled. Whether the window is to end stays as it was. -/
def cancelRun (c : Controls) : Controls := { c with runCancelled := true }

/-- The step that a signal takes when it finds the switches `c`, and the switches after it. -/
def escalate (c : Controls) : ShutdownStep × Controls :=
  match c.nextStep with
  | .endWindow => (.endWindow, c.endWindow)
  | .cancelRun => (.cancelRun, c.cancelRun)
  | .forceCleanup => (.forceCleanup, c)

end Controls
end Vigil
