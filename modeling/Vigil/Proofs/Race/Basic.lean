import Mathlib.Logic.Function.Basic
import Vigil.Guard
import Vigil.Proofs.Schedule.Join

/-!
# Cleanups that race

The orchestrator's own cleanup and any number of cleanups that are forced from beside it may be
under way at the same time. Each of them makes a call of every observer and joins these calls by
itself. The calls of one observer meet at its guard: one of them does the work, and the others wait
for it.

No order of their steps is excluded. Of time it is assumed that a body is not at work any more when
a deadline strikes, and that a call which can go on has done so by then: a clock that only moves
when nobody can go on keeps to the latter.

The module introduces:

* `Site`, an observer's guard and what has become of the body behind it;
* `Cleanup`, a cleanup that was asked for, and `Race`, all of them with the run that they are about;
* `Race.Event`, a step of anyone who takes part, and `Race.after`, the race after some steps;
* `Race.InTime`, when no deadline cuts anything short.
-/

namespace Vigil.Schedule

/-- How a call ends that has done the work behind a guard and had the answer of the body. -/
def endingOf : Except Error Unit → Ending
  | .ok () => .returned {}
  | .error e => .failed e

/-- The guard of an observer, and what has become of the body behind it, for all cleanups
together. -/
structure Site where
  guard : Guard := {}
  begun : Nat := 0
  /-- The cleanup whose call has finished the body, and how the body came out. -/
  work : Option (Nat × Except Error Unit) := none

namespace Site

/-- The call of the cleanup `caller` comes to the guard. Callers are known by the numbers of their
cleanups. -/
def come (s : Site) (caller : Nat) : Site :=
  match s.guard.enter caller with
  | (.works, guard) => { s with guard, begun := s.begun + 1 }
  | (_, guard) => { s with guard }

/-- The body of `worker` ends with `answer`, and the guard lets everybody pass. -/
def finish (s : Site) (worker : Nat) (answer : Except Error Unit) : Site :=
  { s with guard := s.guard.complete.2, work := some (worker, answer) }

def leave (s : Site) (caller : Nat) : Site :=
  match s.guard.withdraw caller with
  | (next, guard) => { s with guard, begun := s.begun + next.toList.length }

end Site

/-- A cleanup that was asked for, from then until it has reported its records. -/
structure Cleanup where
  since : Nat
  /-- The join of its calls, once it has begun. -/
  join : Option Join := none
  /-- What it has reported, once it has returned. -/
  report : Option (List Record) := none

/-- Whether the deadline of a cleanup that has not returned has passed at the instant `now`. -/
def Cleanup.isLate (c : Cleanup) (now : Nat) : Bool :=
  c.report.isNone && c.join.any fun j => decide (j.deadline ≤ now)

/-- Carries a cleanup out whose calls have come out as `outcomes` says, for what the orchestrator
does around its join. -/
def answering (outcomes : List CallOutcome) (scene : Stage) : Platform World :=
  { platform with join := fun _ _ => (some outcomes, scene) }

/-- A cleanup, with the records that it returns or, if it is the orchestrator's own, that it adds to
the results. -/
def reportOf (own : Bool) (platform : Platform World) : Conduct World (List Record) := do
  if own then
    let before := (← get).orchestrator.results.length
    Conduct.cleanup platform
    pure ((← get).orchestrator.results.drop before)
  else Conduct.forceCleanup platform

def Move.round? : Move → Option Nat
  | .enter round _ => some round
  | .finish round .. => some round
  | .stop round _ => some round
  | _ => none

/-- A run and the cleanups of it that overlap: each has a round of calls of its own, and all calls
on one observer meet at one guard. -/
structure Race where
  /-- The number of calls' rounds before the first cleanup. -/
  first : Nat
  run : Run
  /-- The guards of the observers, by their positions. -/
  sites : Nat → Site := fun _ => {}
  /-- The cleanups in the order in which they were asked for. -/
  cleanups : List Cleanup := []
  /-- The number of the orchestrator's own cleanup. -/
  own : Option Nat := none

namespace Race

def start (run : Run) : Race := { first := run.world.rounds.length, run }

/-- The `JoinRequest` that each cleanup makes, whoever has asked for it. -/
def request (r : Race) : JoinRequest := r.run.orchestrator.cleanupRequest r.run.scene.started

/-- Where the call of the cleanup on `observer` stands. -/
def status? (r : Race) (cleanup observer : Nat) : Option Status :=
  (r.run.world.task? (r.first + cleanup) observer).map Task.status

def isStopping (r : Race) (cleanup observer : Nat) : Bool :=
  (r.run.world.task? (r.first + cleanup) observer).any fun t => t.aborted && !t.isOver

def setTask (r : Race) (cleanup observer : Nat) (f : Task → Task) : Race :=
  { r with
    run := r.run.updateScene fun s => s.updateWorld (World.change (r.first + cleanup) observer f) }

def setSite (r : Race) (observer : Nat) (site : Site) : Race :=
  { r with sites := Function.update r.sites observer site }

/-- A cleanup is asked for and makes its calls, in a new round of `r`. -/
def ask (r : Race) (own : Bool) : Race :=
  { r with
    run := r.run.updateScene fun s => s.spawn r.request
    cleanups := r.cleanups ++ [{ since := r.run.scene.clock }]
    own := if own then some r.cleanups.length else r.own }

/-- The cleanup `c` returns with `outcomes`, and reports their records. -/
def leave (r : Race) (cleanup : Nat) (c : Cleanup) (outcomes : List CallOutcome) : Race :=
  let scene := Stage.note (r.first + cleanup) (some outcomes) r.run.scene
  -- It goes on from where it was asked for, and its calls have taken until now.
  let asked : Run := { r.run with scene := { r.run.scene with clock := c.since } }
  match asked.perform (reportOf (r.own == some cleanup) (answering outcomes scene)) with
  | (.ok records, run) =>
    { r with run, cleanups := r.cleanups.modify cleanup fun c => { c with report := some records } }
  | (.error _, run) => { r with run }

/-- The cleanup `c` takes a turn of the loop over its calls, or returns. -/
def turn (r : Race) (cleanup : Nat) (c : Cleanup) : Race :=
  match c.join.bind (Join.outcomes? (r.run.world.isOver (r.first + cleanup))) with
  | some outcomes => r.leave cleanup c outcomes
  | none =>
    match Stage.turn? r.request (r.first + cleanup) r.run.scene c.join with
    | some (join, stop) =>
      { r with
        run := r.run.updateScene fun s => s.abort (r.first + cleanup) stop
        cleanups := r.cleanups.modify cleanup fun c => { c with join := some join } }
    -- There is no room for the deadline: the cleanup panics and never returns.
    | none => r

/-- A step of someone who takes part in a race. Cleanups are named by their numbers, and observers
by their positions. -/
inductive Event where
  | asks (own : Bool)
  /-- A call comes to the guard of its observer. -/
  | comes (cleanup observer : Nat)
  /-- The body of an observer ends. -/
  | finishes (observer : Nat) (answer : Except Error Unit)
  /-- A call passes the guard of its observer. -/
  | passes (cleanup observer : Nat)
  | turns (cleanup : Nat)
  /-- A call stops that was asked to. -/
  | stops (cleanup observer : Nat)
  /-- The orchestrator carries out a working phase, whose calls come out in some ways. -/
  | works (command : Command) (outcomes : List CallOutcome)
  /-- Something else goes on. If it does so with a call, that is one from before the race. -/
  | beside (move : Move)

def Event.turned? : Event → Option Nat
  | turns cleanup => some cleanup
  | _ => none

/-- What a step does. Steps that cannot be taken where `r` stands do nothing. -/
def step (r : Race) : Event → Race
  | .asks own =>
    -- A cleanup of the orchestrator keeps it busy, and a second one finds nothing to do.
    if own ∧ (r.own.isSome ∨ r.run.orchestrator.state = .cleanedUp) then r else r.ask own
  | .comes cleanup observer =>
    if r.status? cleanup observer = some .fresh then
      (r.setTask cleanup observer Task.enter).setSite observer
        ((r.sites observer).come cleanup)
    else r
  | .finishes observer answer =>
    match (r.sites observer).guard.worker with
    | some worker =>
      (r.setTask worker observer (Task.finish (endingOf answer))).setSite observer
        ((r.sites observer).finish worker answer)
    | none => r
  | .passes cleanup observer =>
    if (r.sites observer).guard.done ∧ r.status? cleanup observer = some .running then
      r.setTask cleanup observer (Task.finish (.returned {}))
    else r
  | .turns cleanup =>
    match r.cleanups[cleanup]? with
    | some c => if c.report.isNone then r.turn cleanup c else r
    | none => r
  | .stops cleanup observer =>
    if r.isStopping cleanup observer then
      (r.setTask cleanup observer Task.stop).setSite observer
        ((r.sites observer).leave cleanup)
    else r
  | .works command outcomes =>
    -- During its own cleanup the orchestrator does nothing else, and after it all is refused.
    if r.own.isNone ∧ command.phase ≠ .cleanup then
      { r with run := (r.run.perform (command.conduct (answering outcomes r.run.scene))).2 }
    else r
  | .beside m =>
    if m.round?.all fun round => decide (round < r.first) then
      { r with run := r.run.updateScene fun s => s.move m }
    else r

def after (r : Race) (events : List Event) : Race := events.foldl step r

/-- Whether a call can go on by itself: it has not come to its guard, or the guard lets it pass. -/
def canGo (r : Race) (cleanup observer : Nat) : Bool :=
  r.status? cleanup observer = some .fresh ||
    (r.status? cleanup observer = some .running && (r.sites observer).guard.done)

/-- What is assumed of a step: when a cleanup whose deadline has passed takes a turn, no body is at
work, and none of its calls has been kept from going on. -/
def Timely (r : Race) (e : Event) : Prop :=
  ∀ k ∈ e.turned?, ∀ c ∈ r.cleanups[k]?, c.isLate r.run.scene.clock = true →
    ∀ i < r.request.targets.length, (r.sites i).guard.worker = none ∧ r.canGo k i = false

instance (r : Race) (e : Event) : Decidable (r.Timely e) := by
  unfold Timely
  infer_instance

/-- Each of the steps is `Timely` where it is taken. -/
def InTime (r : Race) : List Event → Prop
  | [] => True
  | e :: events => r.Timely e ∧ InTime (r.step e) events

instance decidableInTime (r : Race) : (events : List Event) → Decidable (r.InTime events)
  | [] => inferInstanceAs (Decidable True)
  | e :: events =>
    have := decidableInTime (r.step e) events
    inferInstanceAs (Decidable (r.Timely e ∧ InTime (r.step e) events))

end Race
end Vigil.Schedule
