import Vigil.Proofs.Command

/-!
# Runs under a schedule

Every call of an observer is a task of its own. A schedule says who takes the next step: the run
itself, which joins the calls of a phase, or anything that goes on beside it, such as a task that
ends, time that passes, a cancellation or an interval that is recorded. No order is excluded. Of
tasks it is assumed that one that was asked to stop does so at some later step or not at all, and
that waiting for a task ends only when it has come to an end or to a stop.

A schedule is a finite list. When it is over in the midst of a phase the run stands there, so the
states of runs under all schedules are all states that a run can be in, those within a phase
included.

The module introduces:

* `Task`, `Round` and `World`, the calls that were made so far, phase by phase;
* `Move`, what goes on beside a run, and `Slot`, one step of a schedule;
* `await`, the join of the calls of a phase under a schedule, and `platform`, which uses it;
* `served`, a schedule by which all calls end;
* `Act`, what can happen to a run, and `after`, the run after some acts.
-/

namespace Vigil.Schedule

/-- Where the task of a call stands: made but not begun, under way, ended by itself with an
`Ending`, or stopped because the orchestrator asked it to. -/
inductive Status where
  | fresh
  | running
  | ended (ending : Ending)
  | stopped
  deriving DecidableEq

/-- A call of an observer as the host runs it: its `Status`, and the request to stop that `abort`
leaves on it. -/
structure Task where
  status : Status := .fresh
  aborted : Bool := false
  deriving DecidableEq

namespace Task

/-- How the task ended, if it did so by itself; a stopped task has no `Ending`. -/
def ending? (t : Task) : Option Ending :=
  match t.status with
  | .ended e => some e
  | _ => none

def isOver (t : Task) : Bool :=
  match t.status with
  | .ended _ => true
  | .stopped => true
  | _ => false

def enter (t : Task) : Task := if t.status = .fresh then { t with status := .running } else t

/-- The task `t` ends by itself with `e`, if it has begun and is not over. -/
def finish (e : Ending) (t : Task) : Task :=
  if t.status = .running then { t with status := .ended e } else t

/-- The task `t` is asked to stop, unless it is over. -/
def abort (t : Task) : Task := if t.isOver then t else { t with aborted := true }

/-- The task `t` stops if it was asked to, and not before. -/
def stop (t : Task) : Task :=
  if t.isOver then t else if t.aborted then { t with status := .stopped } else t

end Task

/-- The calls of one phase as the host runs them: the `JoinRequest` behind them, one `Task` for each
of its targets, and the outcomes once the run has taken them over. -/
structure Round where
  request : JoinRequest
  /-- The calls, in the order of the observers. -/
  tasks : List Task := request.targets.map fun _ => {}
  /-- The outcomes that the run took over, once it did. -/
  outcomes : Option (List CallOutcome) := none
  /-- Each observer has one call. -/
  length_tasks : tasks.length = request.targets.length := by simp

namespace Round

def phase (r : Round) : Phase := r.request.call.phase

def change (observer : Nat) (f : Task → Task) (r : Round) : Round :=
  { r with
    tasks := r.tasks.modify observer f
    length_tasks := by rw [List.length_modify, r.length_tasks] }

def isLive (r : Round) : Bool := r.tasks.any fun t => !t.isOver

end Round

/-- Something that goes on beside a run: its calls begin, end and stop, time passes, switches are
thrown, intervals are recorded. Tasks are named by their round and their observer. -/
inductive Move where
  | enter (round observer : Nat)
  | finish (round observer : Nat) (ending : Ending)
  /-- A task stops that was asked to. -/
  | stop (round observer : Nat)
  | elapse (millis : Nat)
  | cancelRun
  /-- The observation window is to end. -/
  | endWindow
  /-- An interval is handed to the recorder. -/
  | record (interval : Interval)
  | write (files : FileTree)
  /-- The clock on the wall shows another time. -/
  | adjust (present : Timestamp)

/-- One step of a schedule: the run itself goes on, or a `Move` takes place beside it. -/
inductive Slot where
  | run
  | beside (move : Move)

/-- Whether a run can be asked for something: it is `free` between commands and after one that
returned. -/
inductive Standing where
  | free
  /-- It is in the midst of a phase. -/
  | joining
  /-- It has panicked because an instant has no room. -/
  | panicked
  deriving DecidableEq, Repr

/-- What is kept of a run besides its `Scene`: the tasks of its rounds, what the recorder let in,
where the run stands, the rest of its schedule, and the clock on the wall. -/
structure World where
  /-- The calls that were made, phase by phase. -/
  rounds : List Round := []
  /-- The intervals that the recorder has let in. -/
  accepted : List Interval := []
  standing : Standing := .free
  slots : List Slot := []
  present : Timestamp := .epoch

namespace World

def change (round observer : Nat) (f : Task → Task) (w : World) : World :=
  { w with rounds := w.rounds.modify round (Round.change observer f) }

def task? (w : World) (round observer : Nat) : Option Task :=
  w.rounds[round]?.bind fun r => r.tasks[observer]?

/-- How the task of `observer` in `round` ended, if there is such a task and it ended by itself. -/
def ending? (w : World) (round observer : Nat) : Option Ending :=
  (w.task? round observer).bind Task.ending?

def isOver (w : World) (round observer : Nat) : Bool :=
  ((w.task? round observer).map Task.isOver).getD false

/-- The phases in which `observer` was called, in the order of the calls. A call that is stopped
before it begins was made all the same. -/
def callsOn (w : World) (observer : Nat) : List Phase :=
  (w.rounds.filter fun r => decide (observer < r.tasks.length)).map Round.phase

end World

/-- The scene of a run under a schedule, with its `World` inside. -/
abbrev Stage := Scene World

namespace Stage

def updateWorld (s : Stage) (f : World → World) : Stage := { s with inner := f s.inner }

/-- Lets `m` go on beside the run. A move that is not possible where the scene stands, such as the
end of a call that has not begun, changes nothing. -/
def move (s : Stage) : Move → Stage
  | .enter round observer => s.updateWorld (World.change round observer Task.enter)
  | .finish round observer e => s.updateWorld (World.change round observer (Task.finish e))
  | .stop round observer => s.updateWorld (World.change round observer Task.stop)
  | .elapse millis => { s with clock := s.clock + millis }
  | .cancelRun => { s with controls := s.controls.cancelRun }
  | .endWindow => { s with controls := s.controls.endWindow }
  | .record i =>
    match s.recorder.record i with
    | (.ok (), recorder) =>
      { s with recorder, inner := { s.inner with accepted := s.inner.accepted ++ [i] } }
    | (.error _, recorder) => { s with recorder }
  | .write files => { s with files }
  | .adjust present => s.updateWorld fun w => { w with present }

/-- Asks the task of `observer` in `round` to stop, if the turn has named one. -/
def abort (round : Nat) (observer : Option Nat) (s : Stage) : Stage :=
  match observer with
  | some observer => s.updateWorld (World.change round observer Task.abort)
  | none => s

def stand (s : Stage) (standing : Standing) (slots : List Slot) : Stage :=
  s.updateWorld fun w => { w with standing, slots }

/-- What the next turn of a join has come to. Before the first turn there is no `Join` yet, so the
first one is where the deadline is taken from the clock; none stands for an instant without room. -/
def turn? (request : JoinRequest) (round : Nat) (s : Stage) : Option Join →
    Option (Join × Option Nat) :=
  -- No cancellation reaches a cleanup.
  let cancelled := request.call.phase != .cleanup && s.controls.runCancelled
  fun
  | none =>
    (Join.start? s.origin request.limits s.clock cancelled (List.range request.targets.length)).map
      fun j => (j, none)
  | some j => j.turn s.origin s.clock cancelled (s.inner.ending? round)

/-- Joins the calls of `round` under a schedule. Each step of the run is one turn of `Stage.turn?`;
the join returns once `Join.outcomes?` has an outcome for every task, and a schedule that is over
before leaves it standing. -/
def await (request : JoinRequest) (round : Nat) :
    List Slot → Option Join → Stage → Option (List CallOutcome) × Stage
  | [], _, s => (none, s.stand .joining [])
  | .beside m :: slots, j, s => await request round slots j (s.move m)
  | .run :: slots, j, s =>
    match j.bind (Join.outcomes? (s.inner.isOver round)) with
    | some outcomes => (some outcomes, s.stand .free slots)
    | none =>
      match s.turn? request round j with
      | none => (none, s.stand .panicked slots)
      | some (j, stop) => await request round slots (some j) (s.abort round stop)

/-- Makes the calls of `request`: a new round whose tasks are all fresh. -/
def spawn (request : JoinRequest) (s : Stage) : Stage :=
  s.updateWorld fun w => { w with rounds := w.rounds ++ [{ request }] }

def note (round : Nat) (outcomes : Option (List CallOutcome)) (s : Stage) : Stage :=
  s.updateWorld fun w => { w with rounds := w.rounds.modify round fun r => { r with outcomes } }

/-- Makes the calls of `request`, joins them under the schedule that the scene has kept, and notes
their outcomes. -/
def join (request : JoinRequest) (s : Stage) : Option (List CallOutcome) × Stage :=
  let round := s.inner.rounds.length
  let (outcomes, s) := await request round s.inner.slots none (s.spawn request)
  (outcomes, s.note round outcomes)

/-- Lets moves go on beside the run until its own next step, with the rest of the schedule kept for
what the run does then. -/
def idle : List Slot → Stage → Stage
  | [], s => s.stand .free []
  | .beside m :: slots, s => idle slots (s.move m)
  | .run :: slots, s => s.stand .free slots

end Stage

/-- A schedule by which the calls of `round` end with the given `endings`, one after the other, and
are then joined. -/
def served (round : Nat) (endings : List Ending) : List Slot :=
  (endings.zipIdx.flatMap fun e =>
    [.beside (.enter round e.2), .beside (.finish round e.2 e.1)]) ++
  List.replicate (endings.length + 2) .run

/-- The platform that carries out a run under a schedule: what it makes of a `JoinRequest` is
`Stage.join`. -/
def platform : Platform World where
  join := Stage.join
  awaitWindow := fun _ s => Stage.idle s.inner.slots s
  wallClock := fun s => s.inner.present

abbrev Run := Progress World

/-- Something that happens to a run from outside: a move beside it, another token, or a command with
the schedule while it is carried out. -/
inductive Act where
  | beside (move : Move)
  /-- It is given another token, by which it is not cancelled. -/
  | renewToken
  /-- It is asked for something, and this is the schedule while it is carried out. -/
  | command (command : Command) (slots : List Slot)

namespace Run

/-- A new run of the observers in `registry`, on a host whose monotonic clock reads `origin`
nanoseconds at its start. -/
def new (runId : String) (registry : Registry) (limits : Limits) (origin : Nat) : Run :=
  Progress.new runId registry limits { origin, inner := {} }

def updateScene (r : Run) (f : Stage → Stage) : Run := { r with scene := f r.scene }

def world (r : Run) : World := r.scene.inner

def isFree (r : Run) : Bool := decide (r.world.standing = .free)

/-- Asks for `c` while `slots` is the schedule of what goes on beside it. -/
def ask (r : Run) (c : Command) (slots : List Slot) : Except Halt Unit × Run :=
  (r.updateScene fun s => s.stand .free slots).perform (c.conduct platform)

/-- The run after something has happened to it. Nothing is asked of a run in the midst of a phase or
after a panic. -/
def act (r : Run) : Act → Run
  | .beside m => r.updateScene fun s => s.move m
  | .renewToken =>
    if r.isFree then
      r.updateScene fun s => { s with controls := { s.controls with runCancelled := false } }
    else r
  | .command c slots => if r.isFree then (r.ask c slots).2 else r

/-- The run `r` after `acts`, one after the other. -/
def after (r : Run) (acts : List Act) : Run := acts.foldl act r

end Run
end Vigil.Schedule
