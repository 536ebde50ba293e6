import Vigil.ClusterInfo
import Vigil.ReportFiles

/-!
# Sessions

A runner is a valid configuration with its observers. It prepares a session, which is one run: the
orchestrator, what the run is given, and how long its window stays open. When a session is executed
the window itself becomes an interval of the run, and the report is written once cleanup is over.

The module introduces:

* `Runner`, made by `Runner.ofConfig` and extended by `Runner.withObservers`;
* `Session`, made by `Runner.prepare`, and `Session.execute`;
* `Summary`, what a session leaves behind.
-/

namespace Vigil

/-- An error of a runner, with the `Error` that caused it if there is one. -/
inductive RunnerError where
  | invalidConfig (cause : Error)
  /-- The configuration could not be loaded. -/
  | notLoaded (cause : Error)
  /-- No log format has that name. -/
  | unknownLogFormat (name : String)
  | run (cause : Error)
  deriving DecidableEq

def RunnerError.message : RunnerError → String
  | invalidConfig cause => "config validation failed: " ++ cause.message
  | notLoaded cause => "failed to load config: " ++ cause.message
  | unknownLogFormat name => "unknown log format '" ++ name ++ "', expected 'json' or 'pretty'"
  | run cause => cause.message

/-- How log lines look. Only whether a name is that of a format matters here. -/
inductive LogFormat where
  | json
  | pretty
  deriving DecidableEq, Repr

namespace LogFormat

/-- The format of the name `name`, or the error that no format has that name. -/
def ofName (name : String) : Except RunnerError LogFormat :=
  if name = "json" then .ok json
  else if name = "pretty" then .ok pretty
  else .error (.unknownLogFormat name)

def debugName : LogFormat → String
  | json => "Json"
  | pretty => "Pretty"

end LogFormat

/-- A valid configuration with its observers, which is all that is needed to prepare sessions. -/
structure Runner where
  config : Config
  registry : Registry

/-- One run that has been prepared: how long its window stays open and what it is given. -/
structure Session where
  /-- How long the window stays open; without it, until it is ended. -/
  windowLength : Option Duration
  inputs : RunInputs

namespace Runner

/-- The runner of the configuration `config`, with the built-in observers. A configuration that does
not validate has none. -/
def ofConfig (config : Config) : Except RunnerError Runner :=
  match config.validate with
  | .error e => .error (.invalidConfig e)
  | .ok () => .ok ⟨config, builtinRegistry config.observers⟩

def withObservers (r : Runner) (extra : Registry) : Except RunnerError Runner :=
  match r.registry.compose extra with
  | .error e => .error (.run e)
  | .ok registry => .ok { r with registry }

def observerNames (r : Runner) : List String := r.registry.names

/-- How long the window stays open when the configuration says `secs` seconds. Zero stands for a
window that stays open until it is ended. -/
def windowLength (secs : Nat) : Option Duration := if 0 < secs then some (.ofSecs secs) else none

/-- Prepares a session of `r`, with `suffix` as the end of the names of its files. -/
def prepare (r : Runner) (suffix : String) : Session where
  windowLength := windowLength r.config.lifecycle.workloadSecs
  inputs :=
    { access := ClusterAccess.ofConfig r.config, storageDir := r.config.general.storageDir, suffix }

/-- The new orchestrator of a session of `r` on `scene`. -/
def begin {ε : Type} (r : Runner) (runId : String) (scene : Scene ε) : Progress ε :=
  Progress.new runId r.registry r.config.lifecycle.limits scene

end Runner

/-- What a session leaves behind when its report has been written: the report, and where it lies. -/
structure Summary where
  report : Report
  /-- The end of the names of files. -/
  suffix : String
  paths : ReportPaths

/-- Whether the run counts as failed: it was cancelled, or a check did not hold. -/
def Summary.isFailure (s : Summary) : Bool := s.report.cancelled || s.report.hasFailures

/-- The interval of an observation window, which the runner records in its own name. -/
def Window.interval (w : Window) : Interval :=
  .closed w.opened w.closed workloadCategory "watchpost-runner" "observation window"

namespace Session

variable {ε : Type}

/-- Writes the report of a run to the storage directory, with the suffix of the session `s`. -/
def writeReport (s : Session) (report : Report) : Conduct ε Summary := do
  let p ← get
  let (written, files) :=
    report.write p.scene.files ⟨s.inputs.storageDir⟩ s.inputs.suffix
  set { p with scene := { p.scene with files } }
  match written with
  | .ok paths => pure ⟨report, s.inputs.suffix, paths⟩
  | .error e => throw (.refused e)

/-- Records the interval `i` if the recorder still takes it, and otherwise does nothing. -/
def recordInterval (i : Interval) : Conduct ε Unit :=
  Conduct.updateScene fun scene => { scene with recorder := (scene.recorder.record i).2 }

/-- Executes the session `s`, whose window stays open for `length` at most or, without that, until
it is ended. The report is written once cleanup is over. -/
def executeWith (s : Session) (platform : Platform ε) (length : Option Duration) :
    Conduct ε Summary := do
  Conduct.setup platform s.inputs.access
  let opened ← Conduct.observe platform (.span length)
  Conduct.updateScene fun scene => { scene with controls := scene.controls.endWindow }
  -- The window is over as soon as the run goes on, however it ended.
  let window : Window := ⟨opened, platform.wallClock (← get).scene⟩
  recordInterval window.interval
  Conduct.finish platform s.inputs window
  Conduct.cleanup platform
  writeReport s (← Conduct.intoReport)

/-- Executes a session whose window stays open as long as its configuration says. -/
def execute (s : Session) (platform : Platform ε) : Conduct ε Summary :=
  s.executeWith platform s.windowLength

end Session
end Vigil
