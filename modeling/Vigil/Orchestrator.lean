import Vigil.Scene

/-!
# The orchestrator

The orchestrator leads its observers through the phases. A phase that is asked for in the wrong
state is refused and changes nothing. After a cancellation phases are skipped: they settle without a
call. Cleanup calls every observer once setup has been asked of any, whatever the state.

The module introduces:

* `Orchestrator`, the state of a run besides its scene;
* `Progress`, an orchestrator together with the scene, and `Conduct`, the actions on both;
* `phase`, which all working phases have in common, then the phases, `finish` and `cleanup`;
* `Report`, what is left of a run.
-/

namespace Vigil

/-- What a run leaves behind once it is over: how far it came, its records and its final
intervals. -/
structure Report where
  runId : String
  state : State
  /-- Whether phases were skipped or cut short after a cancellation. -/
  cancelled : Bool
  counts : Counts
  intervals : Timeline
  results : List Record

namespace Report

/-- Whether some check of the report `r` did not hold. Checks that held some of the time are no
failures. -/
def hasFailures (r : Report) : Bool := decide (0 < r.counts.failed)

/-- The records that are attributed to the observer of the name `observer`. -/
def resultsFrom (r : Report) (observer : String) : List Record :=
  r.results.filter fun record => record.source == observer

end Report

/-- The state of a run besides its `Scene`: what it was made with, and what its phases have
settled. -/
structure Orchestrator where
  runId : String
  observers : List Registration
  limits : Limits
  /-- What has been settled so far. -/
  state : State := .pending
  /-- Whether a phase has seen a cancellation. Once that is so the run stays marked. -/
  cancelled : Bool := false
  raw : Timeline := .empty
  final : Timeline := .empty
  results : List Record := []

namespace Orchestrator

def debugText (o : Orchestrator) : String :=
  "LifecycleOrchestrator \x7b run_id: " ++ o.runId ++ ", state: " ++ o.state.debugName
    ++ ", cancelled: " ++ (if o.cancelled then "true" else "false")
    ++ ", observers: " ++ toString o.observers.length
    ++ ", results: " ++ toString o.results.length ++ " \x7d"

/-- The observers that cleanup calls: all of them if setup has been asked of them, and nobody
otherwise. -/
def cleanupTargets (o : Orchestrator) (started : Bool) : List Registration :=
  if started then o.observers else []

def cleanupDebugText (o : Orchestrator) (started : Bool) : String :=
  "CleanupHandle \x7b observers: " ++ toString o.observers.length
    ++ ", started: " ++ toString (o.cleanupTargets started).length
    ++ ", timeout: " ++ o.limits.cleanupTimeout.debugText ++ " \x7d"

/-- The limits of the working phases. Cleanup has limits of its own, see `cleanupRequest`. -/
def phaseLimits (o : Orchestrator) : JoinLimits := ⟨o.limits.phaseTimeout, o.limits.cancelGrace⟩

/-- The calls of cleanup. They have a limit of their own, and no cancellation reaches them. -/
def cleanupRequest (o : Orchestrator) (started : Bool) : JoinRequest :=
  ⟨o.cleanupTargets started, .cleanup, ⟨o.limits.cleanupTimeout, ⟨0⟩⟩⟩

/-- The report of a run that stands where the orchestrator `o` does. -/
def report (o : Orchestrator) : Report :=
  ⟨o.runId, o.state, o.cancelled, Counts.tally o.results, o.final, o.results⟩

/-- The metrics that are emitted with a report: how many records there are of each verdict. -/
def reportEmissions (c : Counts) : List Metrics.Emission :=
  [Metrics.results "pass" c.passed, Metrics.results "fail" c.failed,
   Metrics.results "flake" c.flaked]

end Orchestrator

/-- An orchestrator and the scene on which it acts. This is all that an action can read or
change. -/
structure Progress (ε : Type) where
  orchestrator : Orchestrator
  scene : Scene ε

/-- An action on an orchestrator and its scene, which may halt the run. What it did until then stays
done. -/
abbrev Conduct (ε : Type) := ExceptT Halt (StateM (Progress ε))

namespace Conduct

variable {ε : Type}

def update (change : Orchestrator → Orchestrator) : Conduct ε Unit :=
  modify fun p => { p with orchestrator := change p.orchestrator }

def updateScene (change : Scene ε → Scene ε) : Conduct ε Unit :=
  modify fun p => { p with scene := change p.scene }

/-- Begins `phase`: refuses it in a state that it does not follow, and otherwise settles it and says
whether its calls are to be made. -/
def beginPhase (phase : Phase) : Conduct ε Bool := do
  let p ← get
  match phase.required? with
  | some required =>
    if p.orchestrator.state ≠ required then
      throw (.refused (.outOfOrder phase p.orchestrator.state))
  | none => pure ()
  -- A phase settles whether or not it is skipped.
  let cancelled := p.orchestrator.cancelled || p.scene.controls.runCancelled
  update fun o => { o with state := phase.settled, cancelled }
  pure !cancelled

/-- Has `platform` make the calls of a request and join them. The run halts if they are never
joined. -/
def join (platform : Platform ε) (request : JoinRequest) : Conduct ε (List CallOutcome) := do
  let p ← get
  let (outcomes, scene) := platform.join request p.scene
  set { p with scene }
  match outcomes with
  | some outcomes => pure outcomes
  | none => throw .overflow

/-- Ends `phase`, which began at the time `since`: notes a cancellation, and emits how long the
phase took. -/
def endPhase (phase : Phase) (since : Nat) : Conduct ε Unit :=
  modify fun p =>
    { orchestrator :=
        { p.orchestrator with
          cancelled := p.orchestrator.cancelled || p.scene.controls.runCancelled }
      scene := p.scene.emit [Metrics.phaseDuration phase.label (p.scene.clock - since)] }

/-- What all working phases have in common: every observer is called with `call`, the calls are
joined, and their records are added to those of the run. A phase that is skipped has no
settlement. -/
def phase (platform : Platform ε) (call : Call) : Conduct ε (Option Settlement) := do
  if !(← beginPhase call.phase) then return none
  let p ← get
  -- From here on there may be something to clean up, even if a call fails.
  if call.phase = .setup then updateScene fun s => { s with started := true }
  let outcomes ←
    join platform ⟨p.orchestrator.observers, call, p.orchestrator.phaseLimits⟩
  let settlement := Settlement.ofCalls call.phase p.orchestrator.observers outcomes
  updateScene fun s => s.emit settlement.failures
  update fun o => { o with results := o.results ++ settlement.records }
  endPhase call.phase p.scene.clock
  pure (some settlement)

/-- Takes the intervals that wait in the recorder, which goes on letting others in. -/
def drain : Conduct ε Timeline := do
  let (taken, recorder) := (← get).scene.recorder.drain
  updateScene fun s => { s with recorder }
  pure taken

def closeRecorder : Conduct ε Unit := updateScene fun s => { s with recorder := s.recorder.close }

/-- The first phase: the observers begin to watch the cluster that `access` leads to. -/
def setup (platform : Platform ε) (access : ClusterAccess) : Conduct ε Unit := do
  let _ ← phase platform (.setup access)

/-- The second phase: the raw intervals are those that waited in the recorder and those that the
observers hand over for `window`. -/
def collect (platform : Platform ε) (dir : String) (window : Window) : Conduct ε Unit := do
  let settlement ← phase platform (.collection dir window)
  let recorded ← drain
  let raw := (recorded ++ ⟨(settlement.getD {}).intervals⟩ : Timeline).sort
  update fun o => { o with raw }

/-- The third phase: the final intervals are the raw ones, those that the observers derive and those
that were recorded meanwhile. Nothing can be recorded after it. -/
def construct (platform : Platform ε) (resources : Resources) (window : Window) :
    Conduct ε Unit := do
  let settlement ← phase platform (.construction (← get).orchestrator.raw resources window)
  -- What was recorded until now still belongs to the run.
  let recorded ← drain
  closeRecorder
  let raw := (← get).orchestrator.raw
  let final := (raw ++ ⟨(settlement.getD {}).intervals⟩ ++ recorded : Timeline).sort
  updateScene fun s => s.emit [Metrics.intervals final.size]
  update fun o => { o with final }

/-- The fourth phase: the observers judge the final intervals, and their records are those of the
checks. -/
def evaluate (platform : Platform ε) : Conduct ε Unit := do
  let _ ← phase platform (.evaluation (← get).orchestrator.final)

/-- The fifth phase: the observers write files of their own, whose names end in `suffix`, below
`dir`. -/
def store (platform : Platform ε) (dir suffix : String) (resources : Resources) :
    Conduct ε Unit := do
  let _ ← phase platform (.storage dir suffix (← get).orchestrator.final resources)

/-- Calls the cleanup of the observers, from whatever state, and returns the failing records. It
changes neither the state of the run nor its records. -/
def forceCleanup (platform : Platform ε) : Conduct ε (List Record) := do
  let p ← get
  let request := p.orchestrator.cleanupRequest p.scene.started
  let outcomes ← join platform request
  let settlement := Settlement.ofCalls .cleanup request.targets outcomes
  updateScene fun s =>
    s.emit (settlement.failures
      ++ [Metrics.phaseDuration Phase.cleanup.label (s.clock - p.scene.clock)])
  pure settlement.records

/-- The last phase: the observers release what they hold, and the recorder is closed. Nothing
happens the second time. -/
def cleanup (platform : Platform ε) : Conduct ε Unit := do
  if (← get).orchestrator.state ≠ .cleanedUp then
    let failures ← forceCleanup platform
    -- Only the cleanup of the run itself adds its records to the report.
    closeRecorder
    update fun o => { o with results := o.results ++ failures, state := .cleanedUp }

end Conduct

/-- What a run is given by its caller for its phases. -/
structure RunInputs where
  access : ClusterAccess
  storageDir : String
  /-- The end of the names of files. -/
  suffix : String := ""
  /-- The objects of the cluster at the end of the run. -/
  resources : Resources := .empty

namespace Conduct

variable {ε : Type}

/-- The phases from collection to storage, around the `window` that is over by now. -/
def finish (platform : Platform ε) (inputs : RunInputs) (window : Window) : Conduct ε Unit := do
  collect platform inputs.storageDir window
  construct platform inputs.resources window
  evaluate platform
  store platform inputs.storageDir inputs.suffix inputs.resources

/-- Makes the report of the run and emits its tally by `reportEmissions`. -/
def intoReport : Conduct ε Report := do
  let report := (← get).orchestrator.report
  updateScene fun s => s.emit (Orchestrator.reportEmissions report.counts)
  pure report

/-- Keeps the observation window open as `request` says, unless the run is cancelled, and returns
when it opened. -/
def observe (platform : Platform ε) (request : WindowRequest) : Conduct ε Timestamp := do
  let p ← get
  if !p.orchestrator.cancelled then updateScene (platform.awaitWindow request)
  pure (platform.wallClock p.scene)

/-- A whole run around the caller's own work: setup, the work, and then all other phases. -/
def run (platform : Platform ε) (inputs : RunInputs) : Conduct ε Report := do
  setup platform inputs.access
  let opened ← observe platform .work
  let closed := platform.wallClock (← get).scene
  finish platform inputs ⟨opened, closed⟩
  cleanup platform
  intoReport

end Conduct

/-- A new orchestrator of the observers in `registry`, with its `scene`. The number of observers is
emitted at once. -/
def Progress.new {ε : Type} (runId : String) (registry : Registry) (limits : Limits)
    (scene : Scene ε) : Progress ε :=
  ⟨{ runId, observers := registry.entries, limits },
   scene.emit [Metrics.observersRegistered registry.entries.length]⟩

def Progress.perform {ε α : Type} (p : Progress ε) (action : Conduct ε α) :
    Except Halt α × Progress ε :=
  StateT.run (ExceptT.run action) p

end Vigil
