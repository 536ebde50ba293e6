import Vigil.Proofs.Command
import Vigil.Session

/-!
# Drivers

A driver takes an orchestrator through all its phases, either around work of the caller, as
`Conduct.run` does, or around the window of a session, as `Session.executeWith` does. Other holders
of the switches and of the recorder may act between any two steps of it. Here the steps of both
drivers are laid out once, with hooks between them at which the scene may change. A driver whose
hooks change nothing is the one of the program.

The module introduces:

* `Hooks`, what goes on beside a driver at the points between its steps;
* `Driver`, a platform with hooks and with a way to carry out commands, `Driver.on` and
  `Driver.quiet`;
* `Driver.run`, the steps of a whole run, and its parts `Driver.setUp`, `Driver.collect` and
  `Driver.complete`;
* `Session.executeBy`, the steps of a session, and its parts `Session.closeBy`,
  `Session.collectBy`, `Session.finishBy` and `Session.reportBy`.
-/

namespace Vigil

/-- What goes on beside a driver between its steps. The scene is left as it is at every hook that is
not given. -/
structure Hooks (ε : Type) where
  /-- What goes on in the state `now`, before the next phase begins. -/
  between : (now : State) → Scene ε → Scene ε := fun _ scene => scene
  /-- What goes on once setup is over, until the window opens. -/
  opens : Scene ε → Scene ε := fun scene => scene
  /-- What goes on once the window is to end, until the clock on the wall is read for its end. -/
  ends : Scene ε → Scene ε := fun scene => scene
  /-- What goes on from then on until a session records its window. -/
  records : Scene ε → Scene ε := fun scene => scene

/-- A driver carries out its steps on `platform`, and something goes on at its hooks. -/
structure Driver (ε : Type) extends Hooks ε where
  /-- The platform on which the window is kept open and the clock on the wall is read. -/
  platform : Platform ε
  /-- How the driver carries out a command, which asks the orchestrator for one of its phases. -/
  conduct : Command → Conduct ε Unit

namespace Driver

variable {ε : Type}

/-- The driver that carries out every command on `platform` as `Command.conduct` does, with `hooks`
between its steps. -/
def on (platform : Platform ε) (hooks : Hooks ε) : Driver ε :=
  { hooks with platform, conduct := fun c => c.conduct platform }

/-- The driver on `platform` beside which nothing goes on between its steps. -/
def quiet (platform : Platform ε) : Driver ε := on platform {}

variable (d : Driver ε) (inputs : RunInputs) (window : Window)

/-- The steps of the driver `d` until the window opens: setup, with its `access`. -/
def setUp (access : ClusterAccess) : Conduct ε Unit := do
  Conduct.updateScene (d.between .pending)
  d.conduct (.setup access)
  Conduct.updateScene d.opens

/-- The step of `d` that collects once `window` is closed. -/
def collect : Conduct ε Unit := do
  Conduct.updateScene (d.between .collecting)
  d.conduct (.collect inputs.storageDir window)

/-- The steps of `d` from construction to the report. -/
def complete : Conduct ε Report := do
  Conduct.updateScene (d.between .collected)
  d.conduct (.construct inputs.resources window)
  Conduct.updateScene (d.between .constructed)
  d.conduct .evaluate
  Conduct.updateScene (d.between .evaluated)
  d.conduct (.store inputs.storageDir inputs.suffix inputs.resources)
  Conduct.updateScene (d.between .persisted)
  d.conduct .cleanup
  Conduct.updateScene (d.between .cleanedUp)
  Conduct.intoReport

/-- The steps of a whole run of `d` around the caller's own work. -/
def run : Conduct ε Report := do
  d.setUp inputs.access
  let opened ← Conduct.observe d.platform .work
  Conduct.updateScene d.ends
  let window : Window := ⟨opened, d.platform.wallClock (← get).scene⟩
  d.collect inputs window
  d.complete inputs window

end Driver

namespace Session

variable {ε : Type} (s : Session) (d : Driver ε) (length : Option Duration) (window : Window)

/-- The steps of the session `s` until its window is closed, which stays open for `length` at most
or, without that, until it is ended. -/
def closeBy : Conduct ε Window := do
  d.setUp s.inputs.access
  let opened ← Conduct.observe d.platform (.span length)
  Conduct.updateScene fun scene => { scene with controls := scene.controls.endWindow }
  Conduct.updateScene d.ends
  pure ⟨opened, d.platform.wallClock (← get).scene⟩

/-- The steps of `s` from the end of `window` until the raw intervals have been merged. -/
def collectBy : Conduct ε Unit := do
  Conduct.updateScene d.records
  recordInterval window.interval
  d.collect s.inputs window

/-- The steps of `s` from the end of `window` to its report. -/
def finishBy : Conduct ε Report := do
  s.collectBy d window
  d.complete s.inputs window

/-- The steps of `s` up to its report. -/
def reportBy : Conduct ε Report := do
  let window ← s.closeBy d length
  s.finishBy d window

/-- The steps of `s` until its report is written. -/
def executeBy : Conduct ε Summary := do
  let report ← s.reportBy d length
  s.writeReport report

end Session

/-! ## The drivers of the program -/

variable {ε : Type}

theorem Conduct.updateScene_self : updateScene (fun s : Scene ε => s) = pure () := rfl

namespace Driver

variable (platform : Platform ε)

theorem setUp_quiet (access : ClusterAccess) :
    (quiet platform).setUp access = Conduct.setup platform access := by
  simp only [quiet, on, setUp, Conduct.updateScene_self, Command.conduct, pure_bind, bind_pure_unit]

theorem collect_quiet (inputs : RunInputs) (window : Window) :
    (quiet platform).collect inputs window =
      Conduct.collect platform inputs.storageDir window := by
  simp only [quiet, on, collect, Conduct.updateScene_self, Command.conduct, pure_bind]

theorem complete_quiet (inputs : RunInputs) (window : Window) :
    (quiet platform).complete inputs window = (do
      Conduct.construct platform inputs.resources window
      Conduct.evaluate platform
      Conduct.store platform inputs.storageDir inputs.suffix inputs.resources
      Conduct.cleanup platform
      Conduct.intoReport) := by
  simp only [quiet, on, complete, Conduct.updateScene_self, Command.conduct, pure_bind]

/-- A quiet driver does what `Conduct.run` does. -/
theorem run_quiet (inputs : RunInputs) :
    (quiet platform).run inputs = Conduct.run platform inputs := by
  have still : (quiet platform).ends = fun scene => scene := rfl
  simp only [run, setUp_quiet, collect_quiet, complete_quiet, still, Conduct.updateScene_self,
    Conduct.run, Conduct.finish, pure_bind, bind_assoc]
  rfl

end Driver

/-- A session of a quiet driver is the one that `Session.executeWith` executes. -/
theorem Session.executeBy_quiet (s : Session) (platform : Platform ε) (length : Option Duration) :
    s.executeBy (.quiet platform) length = s.executeWith platform length := by
  have still : (Driver.quiet platform).ends = fun scene => scene := rfl
  have still' : (Driver.quiet platform).records = fun scene => scene := rfl
  simp only [executeBy, reportBy, closeBy, finishBy, collectBy, Driver.setUp_quiet,
    Driver.collect_quiet, Driver.complete_quiet, still, still', Conduct.updateScene_self,
    executeWith, Conduct.finish, pure_bind, bind_assoc]
  rfl

end Vigil
