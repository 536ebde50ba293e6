import Vigil.Session

/-!
# Live runs

In a live run only the built-in observers take part. Their calls take no time, so the phases settle
at once, and the only time that passes is that of the observation window.
-/

namespace Vigil.Live

/-- What a live run keeps for itself: the built-in observer, and the readings of the clock on the
wall. -/
structure State where
  memory : ClusterInfo := {}
  opened : Timestamp
  closed : Timestamp
  windowOver : Bool := false

/-- Calls the built-in observer for each of the targets, one after the other, and carries the scene
through. -/
def callAll (call : Call) (scene : Scene State) : List Registration → List CallOutcome × Scene State
  | [] => ([], scene)
  | _ :: rest =>
    let (ending, memory, files) := scene.inner.memory.answer scene.files call
    let (outcomes, scene) :=
      callAll call { scene with files, inner := { scene.inner with memory } } rest
    (ending.outcome :: outcomes, scene)

/-- Carries out a live run: every call ends at once as the built-in observer answers it, and the
window is over by then. -/
def platform : Platform State where
  join := fun request scene =>
    let (outcomes, scene) := callAll request.call scene request.targets
    (if (later? scene.origin scene.clock request.limits.timeout).isSome then some outcomes
      else none, scene)
  awaitWindow := fun _ scene => { scene with inner := { scene.inner with windowOver := true } }
  wallClock := fun scene =>
    if scene.inner.windowOver then scene.inner.closed else scene.inner.opened

/-- Executes a session once its window is over, on a host whose monotonic clock read `origin` at the
start. The clock on the wall read `opened` and `closed` at both ends of the window. -/
def runSession (runner : Runner) (runId suffix : String) (files : FileTree) (origin : Nat)
    (opened closed : Timestamp) : Except Halt Summary × Progress State :=
  let start := runner.begin runId { origin, files, inner := { opened, closed } }
  start.perform ((runner.prepare suffix).execute platform)

/-- How a session of `runner` comes out, and the files after it. -/
def execute (runner : Runner) (runId suffix : String) (files : FileTree) (origin : Nat)
    (opened closed : Timestamp) : Except Halt Summary × FileTree :=
  (runSession runner runId suffix files origin opened closed).map id
    fun progress => progress.scene.files

end Vigil.Live
