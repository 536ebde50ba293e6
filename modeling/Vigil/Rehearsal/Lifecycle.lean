import Vigil.Rehearsal.Play

/-!
# Rehearsing an orchestrator step by step

Each step asks the orchestrator for one thing while errands run beside it, and is over once both
have ended. What a step answers and what has changed since the step before is its account.
-/

namespace Vigil.Rehearsal

inductive Request where
  | setup
  | collect
  | construct
  | evaluate
  | store
  /-- The phases from the second to the fifth. -/
  | finish
  | cleanup
  /-- A cleanup from beside the run, by the handle to cleanup. -/
  | forceCleanup
  | cancel
  | record (interval : Interval)
  | sleep (millis : Nat)
  | debug
  | timelines

/-- What comes of a request, as the account of a rehearsal tells it. -/
inductive Answer where
  | done
  | refused (error : Error)
  /-- A panic because an instant has no room. -/
  | overflow
  | records (records : List Record)
  /-- Diagnostics: of the orchestrator, of its cleanup, and how many observers were started. -/
  | debug (orchestrator cleanup : String) (started : Nat)
  /-- The raw and the final intervals. -/
  | timelines (raw final : Timeline)

/-- A request with the errands that start at the same time, each after its own delay. -/
structure LifecycleStep where
  request : Request
  /-- The errands, each with the milliseconds until it starts. -/
  errands : List (Nat × Deed) := []

structure Account where
  time : Nat
  answer : Answer
  errands : List (Option (Nat × DeedAnswer))
  /-- The orchestrator once the errands have ended. -/
  orchestrator : Orchestrator
  recorderClosed : Bool
  newRecords : List Record
  /-- The events since the step before, for each observer. -/
  log : List (List Event)

abbrev Rehearsed := Progress World

namespace Rehearsed

def answerOf {α : Type} (tell : α → Answer) : Except Halt α → Answer
  | .ok a => tell a
  | .error (.refused e) => .refused e
  | .error .overflow => .overflow

/-- Performs `action` for its answer, which `tell` puts into words. -/
def act {α : Type} (p : Rehearsed) (tell : α → Answer) (action : Conduct World α) :
    Answer × Rehearsed :=
  let (result, p) := p.perform action
  (answerOf tell result, p)

/-- Asks the orchestrator `p` for one thing, and answers what came of it. -/
def ask (p : Rehearsed) (inputs : RunInputs) (window : Window) : Request → Answer × Rehearsed
  | .setup => p.act (fun _ => .done) (Conduct.setup platform inputs.access)
  | .collect => p.act (fun _ => .done) (Conduct.collect platform inputs.storageDir window)
  | .construct => p.act (fun _ => .done) (Conduct.construct platform inputs.resources window)
  | .evaluate => p.act (fun _ => .done) (Conduct.evaluate platform)
  | .store =>
    p.act (fun _ => .done) (Conduct.store platform inputs.storageDir inputs.suffix inputs.resources)
  | .finish => p.act (fun _ => .done) (Conduct.finish platform inputs window)
  | .cleanup => p.act (fun _ => .done) (Conduct.cleanup platform)
  | .forceCleanup => p.act .records (Conduct.forceCleanup platform)
  | .cancel => (.done, { p with scene := Stage.cancelRun p.scene })
  | .record i =>
    let (answer, recorder) := p.scene.recorder.record i
    (match answer with
      | .ok () => .done
      | .error e => .refused e,
     { p with scene := { p.scene with recorder } })
  | .sleep millis => (.done, { p with scene := Stage.sleepUntil (p.scene.clock + millis) p.scene })
  | .debug =>
    (.debug p.orchestrator.debugText (p.orchestrator.cleanupDebugText p.scene.started)
      (p.orchestrator.cleanupTargets p.scene.started).length, p)
  | .timelines => (.timelines p.orchestrator.raw p.orchestrator.final, p)

/-- Takes the step `s`: its account, and the orchestrator after it and its errands. -/
def step (p : Rehearsed) (inputs : RunInputs) (window : Window) (s : LifecycleStep) :
    Account × Rehearsed :=
  let before := p.orchestrator.results.length
  let old := p.scene.inner.participants.map fun q => q.log.length
  let (answer, p) :=
    ask { p with scene := Stage.addErrands p.scene s.errands } inputs window s.request
  let time := p.scene.clock
  let p := { p with scene := Stage.finishErrands p.scene }
  let account : Account :=
    { time, answer
      errands := p.scene.inner.errands.map Errand.answer
      orchestrator := p.orchestrator
      recorderClosed := p.scene.recorder.closed
      newRecords := p.orchestrator.results.drop before
      log := (p.scene.inner.participants.zip old).map fun e => e.1.log.drop e.2 }
  (account, { p with scene := Stage.updateWorld p.scene fun w => { w with errands := [] } })

def steps (p : Rehearsed) (inputs : RunInputs) (window : Window) :
    List LifecycleStep → List Account × Rehearsed
  | [] => ([], p)
  | s :: rest =>
    let (account, p) := p.step inputs window s
    let (accounts, p) := steps p inputs window rest
    (account :: accounts, p)

end Rehearsed

/-- A new orchestrator whose observers follow scripts; a name that is blank or taken is refused. -/
def rehearse (runId : String) (observers : List (Registration × Script)) (limits : Limits) :
    Except Error Rehearsed := do
  let registry ← observers.foldlM (fun (r : Registry) e => r.register e.1.name e.1.owner) {}
  .ok (Progress.new runId registry limits
    (stage registry.entries (observers.map fun e => .scripted e.2) limits {}))

end Vigil.Rehearsal
