import Vigil.Rehearsal.World

/-!
# Steps of a rehearsal

A step lets one thread or errand go on until it has to wait or has ended, or stops a thread from
outside. A thread that is stopped while it works behind a guard hands the work to the next one.
-/

namespace Vigil.Rehearsal.Stage

/-- What a thread does after an action: it goes on, waits, or ends. -/
inductive Turn where
  | goOn
  /-- It waits; the state is made from the rest of its actions. -/
  | pause (state : List Action → ThreadState)
  | finish (ending : Ending)

/-- The end of the guarded body of the thread `t`: callers that waited go on, or one of them takes
over. -/
def leaveGuard (s : Stage) (t : Thread) (ending : Ending) : Stage :=
  match s.inner.participants[t.participant]? with
  | none => s
  | some p =>
    match ending with
    | .panicked _ =>
      let (next, guard) := p.guard.withdraw t.id
      (s.updateWorld fun w => w.changeParticipant t.participant fun p => { p with guard }).wakeIds
        next.toList .chosen
    | _ =>
      let (waiting, guard) := p.guard.complete
      (s.updateWorld fun w => w.changeParticipant t.participant fun p => { p with guard }).wakeIds
        waiting .released

def isGuarded (s : Stage) (t : Thread) : Bool :=
  match s.inner.participants[t.participant]? with
  | some ⟨_, .scripted script, _, _, _⟩ => script.guarded && t.call.phase == .cleanup
  | _ => false

def stop (s : Stage) (id : Nat) : Stage :=
  match s.inner.threads.find? fun t => t.id == id with
  | none => s
  | some t =>
    match t.state with
    | .ended _ => s
    | .stopped => s
    | _ =>
      -- A call that never began its body leaves no trace.
      let s := if t.entered then s.note t .aborted else s
      -- Nothing that the thread waited for concerns it any more.
      let s := s.updateWorld fun w =>
        { w.setThread { t with state := .stopped } with
          forced := w.forced.filter fun f => f.waiter != .thread id
          ready := w.ready.filter (· != .thread id) }
      if s.isGuarded t then
        match s.inner.participants[t.participant]? with
        | none => s
        | some p =>
          let (next, guard) := p.guard.withdraw id
          (s.updateWorld fun w =>
            w.changeParticipant t.participant fun p => { p with guard }).wakeIds next.toList .chosen
      else s

def stopAll (s : Stage) (ids : List Nat) : Stage := ids.foldl stop s

/-- Settles the cleanup `f` that was forced from within: its records, and the stage after it. -/
def settleForced (s : Stage) (f : ForcedCleanup) : List Record × Stage :=
  let settlement := Settlement.ofCalls .cleanup f.targets f.join.settled
  (settlement.records,
   s.emit (settlement.failures ++ [Metrics.phaseDuration Phase.cleanup.label (s.clock - f.since)]))

/-- What comes of forcing a cleanup: it is over at once, it goes on, or there is no room for its
deadline. -/
inductive Forcing where
  | finished (records : List Record)
  | goesOn
  | overflow

/-- Forces a cleanup for `waiter`, who waits for it. -/
def force (s : Stage) (waiter : Ticket) : Forcing × Stage :=
  let request := s.inner.cleanupRequest s.started
  let (ids, s) := s.spawn request
  match Join.start? s.origin request.limits s.clock false ids with
  | none => (.overflow, s)
  | some j =>
    match j.poll s.origin s.clock false s.inner.ending? with
    | none => (.overflow, s)
    | some (j, stops) =>
      let f : ForcedCleanup := ⟨s.inner.nextId, waiter, s.clock, request.targets, j⟩
      if j.isDone ∧ stops.isEmpty then
        let (records, s) := s.settleForced f
        (.finished records, s)
      else
        (.goesOn,
         (s.updateWorld fun w =>
            { w with forced := w.forced ++ [f], nextId := w.nextId + 1 }).stopAll stops)

def dirOf : Call → String
  | .collection dir _ => dir
  | .storage dir .. => dir
  | _ => ""

/-- The intervals that a call derives in the name of an observer from those of a `category`. -/
def derived (name category : String) : Call → List Interval
  | .construction starting _ window =>
    (starting.ofCategory category).intervals.map fun i =>
      .closed i.start window.closed "computed" name ("derived " ++ i.message)
  | _ => []

def finalOf : Call → Timeline
  | .evaluation final => final
  | .storage _ _ final _ => final
  | _ => .empty

/-- The record that judges whether `count` intervals are too many. -/
def judgement (name : String) (count : Nat) (most : Int) : Record :=
  if (count : Int) ≤ most then .pass name else .fail name (toString count ++ " intervals")

/-- Performs one action of the thread `t`, which the participant `p` runs. -/
def perform (s : Stage) (t : Thread) (p : Participant) : Action → Turn × Stage × Thread
  | .sleep millis =>
    if millis = 0 then (.goOn, s, t) else (.pause (.sleeping (s.clock + millis)), s, t)
  | .hang => (.pause fun _ => .idle, s, t)
  | .awaitCancel =>
    -- No cancellation reaches a cleanup.
    if t.call.phase = .cleanup then (.pause fun _ => .idle, s, t)
    else if s.controls.runCancelled then (.goOn, s, t)
    else (.pause .awaitingCancel, s, t)
  | .cancelRun => (.goOn, s.cancelRun, t)
  | .escalate =>
    match s.controls.nextStep with
    | .endWindow =>
      (.goOn, (s.withControls s.controls.endWindow).note t (.escalated .endWindow), t)
    | .cancelRun => (.goOn, s.cancelRun.note t (.escalated .cancelRun), t)
    -- The thread itself waits until the cleanup is over.
    | .forceCleanup =>
      match s.force (.thread t.id) with
      | (.finished _, s) => (.goOn, s.note t (.escalated .forceCleanup), t)
      | (.goesOn, s) => (.pause .cleaning, s, t)
      | (.overflow, s) => (.finish (.panicked (some instantOverflowText)), s, t)
  | .record i =>
    if p.hasRecorder then
      let (answer, recorder) := s.recorder.record i
      (.goOn, (s.withRecorder recorder).note t (.recorded (some answer)), t)
    else (.goOn, s.note t (.recorded none), t)
  | .yieldInterval i =>
    (.goOn, s, { t with gathered.intervals := t.gathered.intervals ++ [i] })
  | .deriveFrom category =>
    (.goOn, s,
     { t with
       gathered.intervals :=
         t.gathered.intervals ++ derived p.registration.name category t.call })
  | .yieldRecord r => (.goOn, s, { t with gathered.records := t.gathered.records ++ [r] })
  | .judge name category most =>
    (.goOn, s,
     { t with
       gathered.records :=
         t.gathered.records ++ [judgement name ((finalOf t.call).ofCategory category).size most] })
  | .write file value =>
    -- A refused name or file ends the call.
    match (Sink.mk (dirOf t.call)).artifactPath p.registration.name file with
    | .error e => (.finish (.failed e), s, t)
    | .ok path =>
      match writeValue s.files path (some value) with
      | (.ok (), files) => (.goOn, s.withFiles files, t)
      | (.error e, files) => (.finish (.failed e), s.withFiles files, t)
  | .fail e => (.finish (.failed e), s, t)
  | .panic message => (.finish (.panicked message), s, t)

/-- Ends the body of a thread; the guard before it, if there is one, lets others go on. -/
def finishBody (s : Stage) (t : Thread) (ending : Ending) : Stage × Thread :=
  let t := { t with state := .ended ending }
  let (what, answer) : Happening × Option (Except Error Unit) :=
    match ending with
    | .returned _ => (.finished, some (.ok ()))
    | .failed e => (.failed e, some (.error e))
    | .panicked _ => (.panicked, none)
  let s := s.note t what
  if s.isGuarded t then
    let s := s.leaveGuard t ending
    match answer with
    | some answer => (s.note t (.returned answer), t)
    | none => (s, t)
  else (s, t)

/-- Performs actions until the thread has to wait or has ended, in the order of the script. -/
def runActions (s : Stage) (t : Thread) (p : Participant) : List Action → Stage × Thread
  | [] => s.finishBody t (.returned t.gathered)
  | a :: rest =>
    match s.perform t p a with
    | (.goOn, s, t) => runActions s t p rest
    | (.pause state, s, t) => (s, { t with state := state rest })
    | (.finish ending, s, t) => s.finishBody t ending

def beginBody (s : Stage) (t : Thread) (p : Participant) (script : Script) : Stage × Thread :=
  let t := { t with entered := true }
  -- Setup hands out the recorder, and it is kept for the later calls.
  let hasRecorder := p.hasRecorder || t.call.phase == .setup
  let s := s.updateWorld fun w =>
    w.changeParticipant t.participant fun p => { p with hasRecorder }
  let cancelled := t.call.phase != .cleanup && s.controls.runCancelled
  (s.note t (.entered t.call cancelled)).runActions t { p with hasRecorder }
    (script.actions t.call.phase)

def pass (s : Stage) (t : Thread) : Stage × Thread :=
  (s.note t (.returned (.ok ())), { t with state := .ended (.returned {}) })

/-- Lets a thread of a scripted observer go on from where its `ThreadState` says. -/
def runScripted (s : Stage) (t : Thread) (p : Participant) (script : Script) : Stage × Thread :=
  match t.state with
  | .fresh =>
    if s.isGuarded t then
      let s := s.note t .called
      let (turn, guard) := p.guard.enter t.id
      let s := s.updateWorld fun w => w.changeParticipant t.participant fun p => { p with guard }
      match turn with
      | .works => s.beginBody t p script
      | .waits => (s, { t with state := .queued })
      | .passes => s.pass t
    else s.beginBody t p script
  | .chosen => s.beginBody t p script
  | .released => s.pass t
  | .runnable rest => s.runActions t p rest
  | _ => (s, t)

def runThread (s : Stage) (t : Thread) : Stage :=
  match s.inner.participants[t.participant]? with
  | none => s
  | some p =>
    match p.actor with
    | .scripted script =>
      let (s, t) := s.runScripted t p script
      s.updateWorld fun w => w.setThread t
    | .clusterInfo memory =>
      let (ending, memory, files) := memory.answer s.files t.call
      (s.withFiles files).updateWorld fun w =>
        (w.changeParticipant t.participant fun p =>
          { p with actor := .clusterInfo memory }).setThread { t with state := .ended ending }

def endErrand (s : Stage) (id : Nat) (answer : DeedAnswer) : Stage :=
  s.updateWorld fun w =>
    { w with
      errands := w.errands.map fun e =>
        if e.id == id then { e with started := true, answer := some (s.clock, answer) } else e }

def runErrand (s : Stage) (e : Errand) : Stage :=
  let forced (step : List Record → DeedAnswer) : Stage :=
    match s.force (.errand e.id) with
    | (.finished records, s) => s.endErrand e.id (step records)
    | (_, s) => s
  match e.deed with
  | .cancelRun => s.cancelRun.endErrand e.id .cancelled
  | .forceCleanup => forced .cleaned
  | .record i =>
    let (answer, recorder) := s.recorder.record i
    (s.withRecorder recorder).endErrand e.id (.recorded answer)
  | .escalate =>
    match s.controls.nextStep with
    | .endWindow =>
      (s.withControls s.controls.endWindow).endErrand e.id (.escalated .endWindow)
    | .cancelRun => s.cancelRun.endErrand e.id (.escalated .cancelRun)
    | .forceCleanup => forced fun _ => .escalated .forceCleanup

def runTicket (s : Stage) : Ticket → Stage
  | .thread id =>
    match s.inner.threads.find? fun t => t.id == id with
    | some t => s.runThread t
    | none => s
  | .errand id =>
    match s.inner.errands.find? fun e => e.id == id with
    | some e => s.runErrand e
    | none => s

def resumeWaiter (s : Stage) (f : ForcedCleanup) (records : List Record) : Stage :=
  match f.waiter with
  | .thread id =>
    match s.inner.threads.find? fun t => t.id == id with
    | some t =>
      (s.note t (.escalated .forceCleanup)).wake fun t =>
        if t.id == id then
          match t.state with
          | .cleaning rest => some (.runnable rest)
          | _ => none
        else none
    | none => s
  | .errand id =>
    match s.inner.errands.find? fun e => e.id == id with
    | some ⟨_, _, .escalate, _, _⟩ => s.endErrand id (.escalated .forceCleanup)
    | _ => s.endErrand id (.cleaned records)

def pollForced (s : Stage) (f : ForcedCleanup) : Stage :=
  match f.join.poll s.origin s.clock false s.inner.ending? with
  | none => s
  | some (join, stops) =>
    let f := { f with join }
    let s := s.stopAll stops
    if (join.outcomes? s.inner.isOver).isSome then
      let (records, s) := s.settleForced f
      (s.updateWorld fun w =>
        { w with forced := w.forced.filter fun g => g.id != f.id }).resumeWaiter f records
    else
      s.updateWorld fun w =>
        { w with forced := w.forced.map fun g => if g.id == f.id then f else g }

def pollAllForced (s : Stage) : Stage := s.inner.forced.foldl pollForced s

end Vigil.Rehearsal.Stage
