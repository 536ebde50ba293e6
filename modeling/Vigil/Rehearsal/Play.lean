import Vigil.Rehearsal.Step

/-!
# Playing a rehearsal

A rehearsal lets everyone go on who can, and then the one who directs it looks; when nobody can go
on the clock jumps to the next time that somebody waits for.

The module introduces `platform`, which carries out the calls and windows of a run in this way.
-/

namespace Vigil.Rehearsal

def stepLimit : Nat := 1000000

namespace Stage

/-- Lets everyone go on who can, at most `n` steps, the first ticket first. -/
def settleWithin : Nat → Stage → Stage
  | 0, s => s
  | n + 1, s =>
    match s.inner.ready with
    | ticket :: rest =>
      settleWithin n ((s.updateWorld fun w => { w with ready := rest }).runTicket ticket)
    | [] =>
      if s.inner.forced.isEmpty then s
      -- Ending a forced cleanup may wake somebody.
      else
        let s := s.pollAllForced
        if s.inner.ready.isEmpty then s else settleWithin n s

def settle (s : Stage) : Stage := s.settleWithin stepLimit

/-- The times that threads, errands and forced cleanups of `s` wait for. -/
def timers (s : Stage) : List Nat :=
  (s.inner.threads.filterMap fun t =>
      match t.state with
      | .sleeping wakeAt _ => some wakeAt
      | _ => none)
    ++ (s.inner.errands.filterMap fun e => if e.started then none else some e.due)
    ++ s.inner.forced.map fun f => f.join.deadline

def startErrands (s : Stage) : Stage :=
  s.updateWorld fun w =>
    let due := w.errands.filter fun e => !e.started && decide (e.due ≤ s.clock)
    { w with
      ready := w.ready ++ due.map fun e => .errand e.id
      errands := w.errands.map fun e => if e.due ≤ s.clock then { e with started := true } else e }

/-- Lets the clock jump to the next time that somebody waits for; `own` is a time that the director
waits for. Nothing is left to wait for when there is no result. -/
def jump? (s : Stage) (own : Option Nat) : Option Stage :=
  match (own.toList ++ s.timers).min? with
  | none => none
  | some next =>
    let s : Stage := { s with clock := max s.clock next }
    some ((s.wake fun t =>
      match t.state with
      | .sleeping wakeAt rest => if wakeAt ≤ s.clock then some (.runnable rest) else none
      | _ => none).startErrands)

/-- Plays until a condition `holds`; `own` is a time that the director waits for. -/
def playUntil (own : Option Nat) (holds : Stage → Bool) : Nat → Stage → Stage
  | 0, s => s
  | n + 1, s =>
    let s := s.settle
    if holds s then s
    else
      match s.jump? own with
      | some s => playUntil own holds n s
      | none => s

/-- Looks at a join, which takes the turns that it can take now. Once all its calls have outcomes
it returns, and until then it goes on; `heeds` says whether its calls heed a cancellation of the
run. -/
def look (heeds : Bool) (goOn : Join → Stage → Option (List CallOutcome) × Stage) (j : Join)
    (s : Stage) : Option (List CallOutcome) × Stage :=
  match j.poll s.origin s.clock (heeds && s.controls.runCancelled) s.inner.ending? with
  | none => (none, s)
  | some (j, stops) =>
    let s := s.stopAll stops
    match j.outcomes? s.inner.isOver with
    | some outcomes => (some outcomes, if stops.isEmpty then s else s.settle)
    | none => goOn j s

def playJoin (heeds : Bool) : Nat → Join → Stage → Option (List CallOutcome) × Stage
  | 0, _, s => (none, s)
  | n + 1, j, s =>
    s.settle.look heeds
      (fun j s =>
        match s.jump? (some j.deadline) with
        | some s => playJoin heeds n j s
        | none => (none, s))
      j

/-- Makes the calls of `request` and plays until all have outcomes. The calls of a cleanup heed no
cancellation. -/
def join (request : JoinRequest) (s : Stage) : Option (List CallOutcome) × Stage :=
  let heeds := request.call.phase != .cleanup
  let (ids, s) := s.spawn request
  match Join.start? s.origin request.limits s.clock (heeds && s.controls.runCancelled) ids with
  | none => (none, s)
  | some j => s.look heeds (playJoin heeds stepLimit) j

/-- Plays until the clock shows `time`. -/
def sleepUntil (time : Nat) (s : Stage) : Stage :=
  playUntil (some time) (fun s => decide (time ≤ s.clock)) stepLimit s

def errandsDone (s : Stage) : Bool := s.inner.errands.all fun e => e.answer.isSome

def finishErrands (s : Stage) : Stage :=
  if s.errandsDone then s else playUntil none errandsDone stepLimit s

/-- Does the caller's own work, which may record an interval and take some time. -/
def doWork (s : Stage) : Stage :=
  let work := s.inner.work
  let s :=
    match work.record with
    | some i => s.withRecorder (s.recorder.record i).2
    | none => s
  let finish := work.millis.map (s.clock + ·)
  playUntil finish
    (fun s =>
      s.controls.runCancelled ||
        match finish with
        | some time => decide (time ≤ s.clock)
        | none => false)
    stepLimit s

/-- When a window of some `length` ends. A window whose end has no room lasts thirty years. -/
def windowEnd (origin now : Nat) (length : Duration) : Nat :=
  (later? origin now length).getD (now + 30 * 365 * 24 * 60 * 60 * 1000)

/-- Keeps the window open until `request` says, or until it is ended. -/
def awaitWindow (request : WindowRequest) (s : Stage) : Stage :=
  match request with
  | .work => s.doWork
  | .span length =>
    let finish := length.map (windowEnd s.origin s.clock)
    playUntil finish
      (fun s =>
        s.controls.windowEnded || s.controls.runCancelled ||
          match finish with
          | some time => decide (time ≤ s.clock)
          | none => false)
      stepLimit s

/-- Starts errands some milliseconds from now; those without a delay can go on at once. -/
def addErrands (s : Stage) (deeds : List (Nat × Deed)) : Stage :=
  (s.updateWorld fun w =>
    { w with
      errands :=
        w.errands ++ deeds.mapIdx fun i e =>
          { id := w.nextId + i, due := s.clock + e.1, deed := e.2 }
      nextId := w.nextId + deeds.length }).startErrands

end Stage

/-- The platform that carries out a run as a rehearsal: what it makes of a `JoinRequest` is
`Stage.join`. -/
def platform : Platform World where
  join := Stage.join
  awaitWindow := Stage.awaitWindow
  wallClock := fun s => s.inner.present

def standardPresent : Timestamp := .ofParts 2282828282 828282828

/-- What the monotonic clock of a scripted host reads when a rehearsal begins, in nanoseconds: that
of a host that has been up for a second. Statements about runs are made for every such reading. -/
def standardOrigin : Nat := 1000000000

/-- The scene of a rehearsal in which `actors` take part, in the order of the observers'
registry. -/
def stage (observers : List Registration) (actors : List Actor) (limits : Limits)
    (files : FileTree) : Stage :=
  { origin := standardOrigin
    files
    inner :=
      { participants := (observers.zip actors).map fun e => { registration := e.1, actor := e.2 }
        cleanupRequest := fun started =>
          ({ runId := "", observers, limits } : Orchestrator).cleanupRequest started
        present := standardPresent } }

end Vigil.Rehearsal
