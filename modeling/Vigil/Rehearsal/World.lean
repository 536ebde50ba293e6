import Vigil.Orchestrator
import Vigil.Rehearsal.Script

/-!
# The world of a rehearsal

Every call of a scripted observer is a thread. Threads that can go on stand in a queue and run one
after the other, each until it has to wait. Errands are small jobs that start at a given time, and
a cleanup that a thread or an errand forces is a join of its own.
-/

namespace Vigil.Rehearsal

/-- Where a thread of a scripted call stands, and what it waits for. -/
inductive ThreadState where
  | fresh
  /-- It can go on with the rest of its actions. -/
  | runnable (rest : List Action)
  | sleeping (wakeAt : Nat) (rest : List Action)
  | idle
  /-- It waits for the run to be cancelled. -/
  | awaitingCancel (rest : List Action)
  | queued
  /-- The guard has chosen it to do the work. -/
  | chosen
  /-- The guard has let it pass. -/
  | released
  /-- It waits for a cleanup that it forced. -/
  | cleaning (rest : List Action)
  | ended (ending : Ending)
  | stopped

/-- A call of an observer that is under way in a rehearsal, with its number `id`. -/
structure Thread where
  id : Nat
  participant : Nat
  call : Call
  state : ThreadState := .fresh
  gathered : Yield := {}
  entered : Bool := false

/-- A small job that somebody does beside the run, such as a signal or a recording. -/
inductive Deed where
  | cancelRun
  | forceCleanup
  | record (interval : Interval)
  /-- Takes the next step of a shutdown. -/
  | escalate

inductive DeedAnswer where
  | cancelled
  | cleaned (records : List Record)
  | recorded (answer : Except Error Unit)
  | escalated (step : ShutdownStep)

/-- A small job that starts at a given time, and what came of it. -/
structure Errand where
  id : Nat
  due : Nat
  deed : Deed
  started : Bool := false
  /-- When it ended, and what came of it. -/
  answer : Option (Nat × DeedAnswer) := none

/-- Who can go on: the thread or the errand with that number. -/
inductive Ticket where
  | thread (id : Nat)
  | errand (id : Nat)
  deriving DecidableEq

/-- A cleanup that was forced from within a call or an errand, with its join. -/
structure ForcedCleanup where
  id : Nat
  waiter : Ticket
  since : Nat
  targets : List Registration
  join : Join

structure Work where
  /-- An interval that it records. -/
  record : Option Interval := none
  /-- How long it takes; without it, it never ends. -/
  millis : Option Nat := some 0

/-- What a rehearsal keeps besides the scene: who takes part, the threads of their calls, and who
can go on. -/
structure World where
  participants : List Participant := []
  threads : List Thread := []
  errands : List Errand := []
  /-- The cleanups that were forced from within. -/
  forced : List ForcedCleanup := []
  /-- Who can go on, the first of them next. -/
  ready : List Ticket := []
  nextId : Nat := 0
  /-- The calls of a cleanup, by whether setup has been asked for. -/
  cleanupRequest : Bool → JoinRequest
  work : Work := {}
  /-- The clock on the wall, which stands still. -/
  present : Timestamp

abbrev Stage := Scene World

namespace World

/-- How the call with the number `id` ended, if it did so by itself. -/
def ending? (w : World) (id : Nat) : Option Ending :=
  match w.threads.find? fun t => t.id == id with
  | some t =>
    match t.state with
    | .ended e => some e
    | _ => none
  | none => none

def isOver (w : World) (id : Nat) : Bool :=
  match w.threads.find? fun t => t.id == id with
  | some t =>
    match t.state with
    | .ended _ => true
    | .stopped => true
    | _ => false
  | none => true

def setThread (w : World) (t : Thread) : World :=
  { w with threads := w.threads.map fun u => if u.id == t.id then t else u }

def changeParticipant (w : World) (position : Nat) (change : Participant → Participant) : World :=
  { w with participants := w.participants.modify position change }

/-- The position of the observer `name` among the participants. -/
def positionOf (w : World) (name : String) : Nat :=
  w.participants.findIdx fun p => p.registration.name == name

end World

namespace Stage

def updateWorld (s : Stage) (change : World → World) : Stage := { s with inner := change s.inner }

def withControls (s : Stage) (controls : Controls) : Stage := { s with controls }

def withRecorder (s : Stage) (recorder : Recorder) : Stage := { s with recorder }

def withFiles (s : Stage) (files : FileTree) : Stage := { s with files }

/-- Notes what happened to the observer of the thread `t`, with the time. -/
def note (s : Stage) (t : Thread) (what : Happening) : Stage :=
  s.updateWorld fun w =>
    w.changeParticipant t.participant fun p =>
      { p with log := p.log ++ [⟨s.clock, t.call.phase, what⟩] }

/-- Lets threads go on, each in the state that `next` gives for it. -/
def wake (s : Stage) (next : Thread → Option ThreadState) : Stage :=
  s.updateWorld fun w =>
    let woken := w.threads.filterMap fun t => (next t).map fun state => { t with state }
    { w with
      threads := w.threads.map fun t =>
        match next t with
        | some state => { t with state }
        | none => t
      ready := w.ready ++ woken.map fun t => .thread t.id }

def wakeIds (s : Stage) (ids : List Nat) (state : ThreadState) : Stage :=
  ids.foldl (fun s id => s.wake fun t => if t.id == id then some state else none) s

/-- Cancels the run, and lets the threads go on that wait for it. -/
def cancelRun (s : Stage) : Stage :=
  if s.controls.runCancelled then s
  else
    (s.withControls s.controls.cancelRun).wake fun t =>
      match t.state with
      | .awaitingCancel rest => some (.runnable rest)
      | _ => none

/-- Makes the calls of `request`: a fresh thread each, with their numbers. -/
def spawn (s : Stage) (request : JoinRequest) : List Nat × Stage :=
  let first := s.inner.nextId
  let threads := request.targets.mapIdx fun i r =>
    ({ id := first + i, participant := s.inner.positionOf r.name, call := request.call } : Thread)
  (threads.map Thread.id,
   s.updateWorld fun w =>
    { w with
      threads := w.threads ++ threads
      ready := w.ready ++ threads.map fun t => .thread t.id
      nextId := first + threads.length })

end Stage
end Vigil.Rehearsal
