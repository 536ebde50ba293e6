import Vigil.Rehearsal.Play
import Vigil.Session

/-!
# Rehearsing runs and sessions

A whole run, or a whole session with its built-in observers, is played with errands beside it.
-/

namespace Vigil.Rehearsal

/-- A whole run around the caller's own `work`, as `Conduct.run` asks for it. -/
def rehearseRun (runId : String) (observers : List (Registration × Script)) (limits : Limits)
    (inputs : RunInputs) (work : Work) (cancelled : Bool) (errands : List (Nat × Deed)) :
    Except Error (Except Halt Report × Progress World) := do
  let registry ← observers.foldlM (fun (r : Registry) e => r.register e.1.name e.1.owner) {}
  let scene := stage registry.entries (observers.map fun e => .scripted e.2) limits {}
  let scene := Stage.updateWorld scene fun w => { w with work }
  let scene := Stage.addErrands scene errands
  let scene := if cancelled then Stage.cancelRun scene else scene
  .ok ((Progress.new runId registry limits scene).perform (Conduct.run platform inputs))

/-- What a session is rehearsed with: the parts of the host that a script decides. -/
structure SessionPlan where
  config : Config
  /-- The observers besides the built-in ones. -/
  observers : List (Registration × Script) := []
  files : FileTree := {}
  controls : Controls := {}
  /-- The intervals that are recorded before the session. -/
  recorded : List Interval := []
  errands : List (Nat × Deed) := []
  /-- How long the window stays open, if not as long as the configuration says. -/
  window : Option Duration := none
  runId : String
  suffix : String

/-- What comes of a session, with the step that the next signal would have taken. -/
structure SessionAccount where
  runner : Runner
  /-- The step that the next signal takes, before the session. -/
  firstStep : ShutdownStep
  summary : Except Halt Summary
  /-- The orchestrator and the scene after the session. -/
  progress : Progress World

/-- The runner of a `plan`, or what refuses it. -/
def SessionPlan.runner (plan : SessionPlan) : Except RunnerError Runner := do
  let runner ← Runner.ofConfig plan.config
  match plan.observers.foldlM (fun (r : Registry) e => r.register e.1.name e.1.owner) {} with
  | .error e => .error (.run e)
  | .ok extra => runner.withObservers extra

/-- The scene of a `plan` once everything is prepared for the session of `runner`. -/
def SessionPlan.scene (plan : SessionPlan) (runner : Runner) : Stage :=
  let builtin := (builtinRegistry plan.config.observers).entries.map fun _ =>
    Actor.clusterInfo {}
  let actors := builtin ++ plan.observers.map fun e => .scripted e.2
  let scene :=
    stage runner.registry.entries actors runner.config.lifecycle.limits plan.files
  let scene := scene.withControls plan.controls
  let scene := plan.recorded.foldl (fun s i => s.withRecorder (s.recorder.record i).2) scene
  scene.addErrands plan.errands

def SessionPlan.play (plan : SessionPlan) : Except RunnerError SessionAccount := do
  let runner ← plan.runner
  let session := runner.prepare plan.suffix
  let start := runner.begin plan.runId (plan.scene runner)
  let length := if plan.window.isSome then plan.window else session.windowLength
  let (summary, progress) := start.perform (session.executeWith platform length)
  .ok { runner, firstStep := plan.controls.nextStep, summary, progress }

end Vigil.Rehearsal
