import Vigil.Proofs.Recording
import Vigil.Proofs.Reports

/-!
# The interval of the window

The runner records the observation window as an interval of its own. Whatever the observers do,
whatever others record and whenever the run is cancelled, that interval is in the final stream of
the report once, besides all that others put there, and so is whatever was recorded before the
window was closed. Every observer that is told of a window is told of that one.

The module introduces:

* `Pace`, what goes on beside a session between any two of its steps, and `Pace.driver`, the driver
  that goes through a session at this pace;
* `ToldOnly`, of which windows observers have been told;
* `Carries` and `Made`, what becomes of the runner's own intervals before and after construction;
* `Reported`, what is certain of a session.
-/

namespace Vigil

def Call.window? : Call → Option Window
  | .collection _ window => some window
  | .construction _ _ window => some window
  | _ => none

namespace Schedule

/-- What goes on beside a session, at each hook and step by step while it takes what was recorded.
While calls are joined and while the window is open, the schedule of the `World` says so. -/
structure Pace where
  /-- What goes on in each `State`, before the next phase begins. -/
  between : State → List Move := fun _ => []
  /-- What goes on once setup is over, until the window opens. -/
  opens : List Move := []
  /-- What goes on once the window is to end, until the clock on the wall is read. -/
  ends : List Move := []
  /-- What goes on from then on until the window is recorded. -/
  records : List Move := []
  /-- What goes on while collection takes what was recorded. -/
  collects : Course := {}
  /-- What goes on while construction takes what was recorded and closes the recorder. -/
  constructs : Course := {}

/-- Moves one after the other, as a hook of a `Driver`. -/
def goOn (moves : List Move) (s : Stage) : Stage := moves.foldl Stage.move s

namespace Pace

variable (pace : Pace)

/-- The schedule of a command at this pace, step by step. Its calls are joined under the schedule of
the world. -/
def course : Command → Course
  | .collect .. => pace.collects
  | .construct .. => pace.constructs
  | _ => {}

/-- The driver at this pace: the moves go on at its hooks, and each command takes its steps one by
one under its `course`. -/
def driver : Driver World where
  between now := goOn (pace.between now)
  opens := goOn pace.opens
  ends := goOn pace.ends
  records := goOn pace.records
  platform := platform
  conduct c := conductUnder (pace.course c) c

theorem driver_nothing : ({} : Pace).driver = .quiet platform := by
  have alone (c : Command) : conductUnder (course {} c) c = c.conduct platform := by
    cases c <;> exact conductUnder_joins [] _
  rw [driver, funext alone]
  rfl

end Pace
end Schedule

open Schedule (Pace conductUnder)

/-- A session at a pace at which nothing goes on is the one that `Session.executeWith` executes. -/
theorem Session.executeBy_nothing (s : Session) (length : Option Duration) :
    s.executeBy ({} : Pace).driver length = s.executeWith Schedule.platform length := by
  rw [Schedule.Pace.driver_nothing, executeBy_quiet]

namespace Schedule

variable {ok ok' : Window → Prop} {own earlier missed : List Interval} {now now' : State}
  {p q : Run}

/-! ## Of which windows observers have been told -/

/-- No observer has been told of other windows than those that are `ok`. -/
def ToldOnly (ok : Window → Prop) (p : Run) : Prop :=
  ∀ e ∈ p.world.ledger, ∀ w ∈ e.1.call.window?, ok w

namespace ToldOnly

theorem congr (h : ToldOnly ok p) (ledger : q.world.ledger = p.world.ledger) : ToldOnly ok q := by
  unfold ToldOnly
  rw [ledger]
  exact h

theorem mono (h : ToldOnly ok p) (imp : ∀ w, ok w → ok' w) : ToldOnly ok' p :=
  fun e he w hw => imp w (h e he w hw)

theorem concat (h : ToldOnly ok p) {request : JoinRequest} {outcomes : Option (List CallOutcome)}
    (ledger : q.world.ledger = p.world.ledger ++ [(request, outcomes)])
    (told : ∀ w ∈ request.call.window?, ok w) : ToldOnly ok q := by
  intro e he
  rw [ledger] at he
  rcases List.mem_append.1 he with before | last
  · exact h e before
  · obtain rfl := List.mem_singleton.1 last
    exact told

end ToldOnly

theorem ledger_moves (moves : List Move) (s : Stage) :
    (moves.foldl Stage.move s).inner.ledger = s.inner.ledger :=
  (drift_moves moves s).world.ledger

theorem ledger_phase {call : Call} {answer : Except Halt (Option Settlement)}
    (performed : p.perform (Conduct.phase platform call) = (answer, q)) :
    q.world.ledger = p.world.ledger ∨
      ∃ outcomes, q.world.ledger = p.world.ledger ++ [(p.requestOf call, outcomes)] := by
  have joined (outcomes : Option (List CallOutcome)) (scene : Stage)
      (joins : platform.join (p.requestOf call) (p.sceneOf call.phase) = (outcomes, scene)) :
      scene.inner.ledger = p.world.ledger ++ [(p.requestOf call, outcomes)] := by
    have added := (Stage.joined_join (p.requestOf call) (p.sceneOf call.phase)).ledger
    rwa [p.inner_sceneOf call.phase, show Stage.join _ _ = (outcomes, scene) from joins] at added
  cases Progress.phaseResult performed with
  | refused | skipped => exact .inl rfl
  | unjoined scene _ _ joins => exact .inr ⟨none, joined none scene joins⟩
  | joined outcomes scene _ _ joins => exact .inr ⟨some outcomes, joined _ scene joins⟩

theorem ToldOnly.phase (h : ToldOnly ok p) {call : Call}
    {answer : Except Halt (Option Settlement)}
    (performed : p.perform (Conduct.phase platform call) = (answer, q))
    (told : ∀ w ∈ call.window?, ok w) : ToldOnly ok q := by
  rcases ledger_phase performed with same | ⟨outcomes, added⟩
  · exact h.congr same
  · exact h.concat added told

theorem ToldOnly.settleUnder (h : ToldOnly ok p) (course : Course) (c : Command)
    (settlement : Option Settlement) : ToldOnly ok (settleUnder course c settlement p) := by
  apply h.congr
  cases c with
  | collect dir window =>
    obtain ⟨moves, taken⟩ := Stage.take_eq course.takes p.scene
    simp only [Schedule.settleUnder, taken]
    exact ledger_moves moves p.scene
  | construct resources window =>
    obtain ⟨moves, taken⟩ := Stage.take_eq course.takes p.scene
    simp only [Schedule.settleUnder, taken]
    exact (ledger_moves course.closes _).trans (ledger_moves moves p.scene)
  | _ => rfl

/-! ## Actions that bring a run from one point to another -/

/-- From wherever `P` holds an `action` brings a run to where `Q` holds, unless it leaves the run in
the midst of a phase. In no case observers are told of windows that are not `ok`. -/
def Brings {α : Type} (ok : Window → Prop) (P : Run → Prop) (action : Conduct World α)
    (Q : α → Run → Prop) : Prop :=
  ∀ p, P p →
    (∃ a q, p.perform action = (.ok a, q) ∧ Q a q) ∨
    ∃ (halt : Halt) (q : Run),
      p.perform action = (.error halt, q) ∧ q.isFree = false ∧ ToldOnly ok q

theorem Brings.bind {α β : Type} {P : Run → Prop} {x : Conduct World α} {Q : α → Run → Prop}
    {f : α → Conduct World β} {R : β → Run → Prop} (first : Brings ok P x Q)
    (rest : ∀ a, Brings ok (Q a) (f a) R) : Brings ok P (x >>= f) R := by
  intro p start
  rw [Progress.perform_bind]
  obtain ⟨a, q, ran, reached⟩ | ⟨halt, q, halted, stuck⟩ := first p start
  · rw [ran]
    exact rest a q reached
  · rw [halted]
    exact .inr ⟨halt, q, rfl, stuck⟩

theorem brings_updateScene {P : Run → Prop} {Q : Unit → Run → Prop} {f : Stage → Stage}
    (step : ∀ p, P p → Q () { p with scene := f p.scene }) :
    Brings ok P (Conduct.updateScene f) Q :=
  fun p start => .inl ⟨(), _, rfl, step p start⟩

/-- A working command that may begin settles its phase, or it is left in the midst of it; either way
what it told of is known. -/
theorem brings_conductUnder (course : Course) {c : Command} (working : c.phase ≠ .cleanup)
    {P : Run → Prop} {Q : Unit → Run → Prop}
    (ready : ∀ p, P p → c.phase.Ready p.orchestrator.state) (told : ∀ p, P p → ToldOnly ok p)
    (tells : ∀ p : Run, ∀ w ∈ (c.call p).window?, ok w)
    (settles : ∀ p q settlement, P p → Phased (c.call p) p (.ok settlement) q → ToldOnly ok q →
      Q () (settleUnder course c settlement q)) :
    Brings ok P (conductUnder course c) Q := by
  intro p start
  rw [perform_conductUnder course working]
  rcases performed : p.perform (Conduct.phase platform (c.call p)) with ⟨answer, q⟩
  have told' : ToldOnly ok q := (told p start).phase performed (tells p)
  cases phased performed with
  | refused halt unready =>
    rw [Command.phase_call] at unready
    exact absurd (ready p start) unready
  | halted halt _ ready busy => exact .inr ⟨halt, q, rfl, busy, told'⟩
  | settled settlement _ ready state raw final hears idle =>
    refine .inl ⟨(), _, rfl, settles p q settlement start ?_ told'⟩
    exact .settled settlement q ready state raw final hears idle

/-! ## What becomes of the runner's own intervals -/

/-- A run before construction in which everything that the runner recorded (`own`), the observers
handed over or others recorded waits or has been merged into the raw stream. Of what was let in,
`earlier` came first. -/
structure Carries (ok : Window → Prop) (own earlier : List Interval) (now : State) (p : Run) :
    Prop where
  told : ToldOnly ok p
  state : p.orchestrator.state = now
  going : p.scene.recorder.closed = false
  made : (own ++ p.world.handedOver ++ p.world.accepted).Perm
    (p.orchestrator.raw.intervals ++ p.scene.recorder.queue)
  /-- Nothing is merged before collection. -/
  unmerged : now ≠ .collected → p.orchestrator.raw.intervals = []
  earlier : earlier <+: p.world.accepted

namespace Carries

theorem new (runId : String) (registry : Registry) (limits : Limits) (origin : Nat)
    (slots : List Slot) :
    Carries ok [] [] .pending
      ((Run.new runId registry limits origin).updateScene fun s => s.stand .free slots) where
  told := nofun
  state := rfl
  going := rfl
  made := .refl []
  unmerged _ := rfl
  earlier := List.nil_prefix

theorem hears (h : Carries ok own earlier now p) (told : ToldOnly ok q)
    (state : q.orchestrator.state = now') (unmerged : now' ≠ .collected → now ≠ .collected)
    (raw : q.orchestrator.raw = p.orchestrator.raw) (hears : Hears p.scene q.scene []) :
    Carries ok own earlier now' q := by
  obtain ⟨new, queue, accepted, -⟩ := hears.recorded
  have handed : q.world.handedOver = p.world.handedOver := by
    rw [← List.append_nil p.world.handedOver]
    exact hears.handed
  refine ⟨told, state, hears.closed.trans h.going, ?_, ?_, ?_⟩
  · rw [raw, handed, queue, show q.world.accepted = p.world.accepted ++ new from accepted,
      ← List.append_assoc, ← List.append_assoc]
    exact h.made.append_right new
  · intro other
    rw [raw]
    exact h.unmerged (unmerged other)
  · rw [show q.world.accepted = p.world.accepted ++ new from accepted]
    exact h.earlier.trans (List.prefix_append _ _)

theorem moves (h : Carries ok own earlier now p) (moves : List Move) :
    Carries ok own earlier now { p with scene := moves.foldl Stage.move p.scene } :=
  h.hears (h.told.congr (ledger_moves moves p.scene)) h.state id rfl
    (Stage.hears_moves moves p.scene)

/-- The runner's own interval `i` waits with the others, once it is recorded. -/
theorem record (h : Carries ok [] earlier .collecting p) (i : Interval) :
    Carries ok [i] earlier .collecting
      { p with scene := { p.scene with recorder := (p.scene.recorder.record i).2 } } := by
  have queue : (p.scene.recorder.record i).2 =
      { p.scene.recorder with queue := p.scene.recorder.queue ++ [i] } := by
    simp [Recorder.record, h.going]
  refine ⟨h.told, h.state, ?_, ?_, h.unmerged, h.earlier⟩
  · rw [queue]
    exact h.going
  · rw [queue]
    change ([i] ++ p.world.handedOver ++ p.world.accepted).Perm
      (p.orchestrator.raw.intervals ++ (p.scene.recorder.queue ++ [i]))
    rw [← List.append_assoc _ _ [i], List.append_assoc [i]]
    exact List.perm_append_comm.trans (h.made.append_right [i])

/-- Collection merges all that waits with what its calls handed over, so nothing is lost between the
two streams. -/
theorem collected (h : Carries ok own earlier .collecting p) (told : ToldOnly ok q)
    (state : q.orchestrator.state = .collected) (course : Course) {dir : String} {window : Window}
    {settlement : Option Settlement}
    (hears : Hears p.scene q.scene (settlement.getD {}).intervals) :
    Carries ok own earlier .collected (settleUnder course (.collect dir window) settlement q) := by
  have told' := told.settleUnder course (.collect dir window) settlement
  -- While the intervals are taken others may still come.
  obtain ⟨moves, taken⟩ := Stage.take_eq course.takes q.scene
  have hears' := hears.trans (Stage.hears_moves moves q.scene)
  let s := moves.foldl Stage.move q.scene
  obtain ⟨new, queue, accepted, -⟩ := hears'.recorded
  simp only [settleUnder, taken] at told' ⊢
  refine ⟨told', state, hears'.closed.trans h.going, ?_, fun other => absurd rfl other, ?_⟩
  · change (own ++ s.inner.handedOver ++ s.inner.accepted).Perm
      (List.mergeSort (s.recorder.queue ++ (settlement.getD {}).intervals) _ ++ [])
    have made := h.made
    rw [h.unmerged (by decide), List.nil_append] at made
    rw [hears'.handed, queue, accepted, List.append_nil]
    refine .trans ?_ (List.mergeSort_perm _ _).symm
    -- Nothing is lost or doubled: each interval counts the same on both sides.
    rw [List.perm_iff_count] at made ⊢
    intro i
    have waits := made i
    simp only [List.count_append] at waits ⊢
    change _ + (p.world.handedOver.count i + _) + (p.world.accepted.count i + _) = _
    omega
  · change _ <+: s.inner.accepted
    rw [accepted]
    exact h.earlier.trans (List.prefix_append _ _)

end Carries

/-- A run whose final stream is made of everything that the runner recorded (`own`), the observers
handed over or others recorded, except for what was `missed`: let in between the last drain and the
end of the recorder. -/
structure Made (ok : Window → Prop) (own earlier missed : List Interval) (now : State) (p : Run) :
    Prop where
  told : ToldOnly ok p
  state : p.orchestrator.state = now
  closed : p.scene.recorder.closed = true
  made : ∃ later, p.world.accepted = earlier ++ later ++ missed ∧
    p.orchestrator.final.intervals.Perm (own ++ p.world.handedOver ++ (earlier ++ later))

/-- Construction takes all that waits, so what was carried is made: only what is let in later is
missed. -/
theorem Carries.constructed (h : Carries ok own earlier .collected p) (told : ToldOnly ok q)
    (state : q.orchestrator.state = .constructed) (raw : q.orchestrator.raw = p.orchestrator.raw)
    (course : Course) {resources : Resources} {window : Window} {settlement : Option Settlement}
    (hears : Hears p.scene q.scene (settlement.getD {}).intervals) :
    Made ok own earlier (course.closes.filterMap Move.interval?) .constructed
      (settleUnder course (.construct resources window) settlement q) := by
  have told' := told.settleUnder course (.construct resources window) settlement
  -- What comes while the intervals are taken is among them; what comes while the recorder closes is
  -- missed.
  obtain ⟨moves, taken⟩ := Stage.take_eq course.takes q.scene
  have hears' := hears.trans (Stage.hears_moves moves q.scene)
  let s := moves.foldl Stage.move q.scene
  let s' := course.closes.foldl Stage.move s.drained
  obtain ⟨new, queue, accepted, -⟩ := hears'.recorded
  obtain ⟨first, before⟩ := h.earlier
  have going : s.drained.recorder.closed = false := hears'.closed.trans h.going
  have let_in : s'.inner.accepted =
      p.world.accepted ++ new ++ course.closes.filterMap Move.interval? := by
    rw [← show s.inner.accepted = p.world.accepted ++ new from accepted]
    exact Stage.accepted_moves course.closes going
  have handed : s'.inner.handedOver =
      p.world.handedOver ++ (settlement.getD {}).intervals := by
    rw [(Stage.hears_moves course.closes s.drained).handed, List.append_nil]
    exact hears'.handed
  simp only [settleUnder, taken] at told' ⊢
  refine ⟨told', state, rfl, first ++ new, ?_, ?_⟩
  · change s'.inner.accepted = _
    rw [let_in, ← before, List.append_assoc earlier]
  · change (List.mergeSort (q.orchestrator.raw.intervals ++ (settlement.getD {}).intervals ++
      s.recorder.queue) _).Perm (own ++ s'.inner.handedOver ++ (earlier ++ (first ++ new)))
    refine (List.mergeSort_perm _ _).trans ?_
    have made := h.made
    rw [handed, queue, raw, ← List.append_assoc earlier, before]
    -- Nothing is lost or doubled: each interval counts the same on both sides.
    rw [List.perm_iff_count] at made ⊢
    intro i
    have waits := made i
    simp only [List.count_append] at waits ⊢
    change _ + _ + (p.scene.recorder.queue.count i + _) = _
    omega

namespace Made

theorem hears (h : Made ok own earlier missed now p) (told : ToldOnly ok q)
    (state : q.orchestrator.state = now')
    (final : q.orchestrator.final = p.orchestrator.final) (hears : Hears p.scene q.scene []) :
    Made ok own earlier missed now' q := by
  obtain ⟨later, accepted, made⟩ := h.made
  have handed : q.world.handedOver = p.world.handedOver := by
    rw [← List.append_nil p.world.handedOver]
    exact hears.handed
  refine ⟨told, state, hears.closed.trans h.closed, later, ?_, ?_⟩
  · exact (hears.accepted_eq h.closed).trans accepted
  · rw [final, handed]
    exact made

theorem moves (h : Made ok own earlier missed now p) (moves : List Move) :
    Made ok own earlier missed now { p with scene := moves.foldl Stage.move p.scene } :=
  h.hears (h.told.congr (ledger_moves moves p.scene)) h.state rfl (Stage.hears_moves moves p.scene)

end Made

/-! ## The steps of a session -/

theorem brings_goOn (moves : List Move) :
    Brings ok (Carries ok own earlier now) (Conduct.updateScene (goOn moves))
      fun _ => Carries ok own earlier now :=
  brings_updateScene fun _ h => h.moves moves

theorem brings_goOn_made (moves : List Move) :
    Brings ok (Made ok own earlier missed now) (Conduct.updateScene (goOn moves))
      fun _ => Made ok own earlier missed now :=
  brings_updateScene fun _ h => h.moves moves

theorem brings_recordInterval (i : Interval) :
    Brings ok (Carries ok [] earlier .collecting) (Session.recordInterval i)
      fun _ => Carries ok [i] earlier .collecting :=
  brings_updateScene fun _ h => h.record i

theorem brings_observe (request : WindowRequest) :
    Brings ok (Carries ok own earlier now) (Conduct.observe platform request)
      fun _ => Carries ok own earlier now := by
  intro p h
  left
  cases cancelled : p.orchestrator.cancelled with
  | true =>
    refine ⟨platform.wallClock p.scene, p, ?_, h⟩
    simp [Conduct.observe, Progress.perform_bind, cancelled]
  | false =>
    obtain ⟨moves, rest, waited⟩ := Stage.exists_idle p.scene.inner.slots p.scene
    refine ⟨platform.wallClock p.scene,
      { p with scene := platform.awaitWindow request p.scene }, ?_, ?_⟩
    · simp [Conduct.observe, Progress.perform_bind, cancelled, Except.map]
    · change Carries ok own earlier now { p with scene := Stage.idle p.scene.inner.slots p.scene }
      rw [waited]
      -- Where the schedule stands matters to no interval.
      have later := h.moves moves
      exact ⟨later.told, later.state, later.going, later.made, later.unmerged, later.earlier⟩

theorem brings_setup (access : ClusterAccess) :
    Brings ok (Carries ok own earlier .pending) (Conduct.setup platform access)
      fun _ => Carries ok own earlier .collecting := by
  have performs : conductUnder {} (.setup access) = Conduct.setup platform access := rfl
  rw [← performs]
  refine brings_conductUnder {} (by nofun) (fun p h => ?_) (fun p h => h.told) (fun p => nofun) ?_
  · rw [h.state]
    show Phase.Ready .setup .pending
    decide
  · intro p q settlement h phased told
    cases phased with
    | settled _ _ ready state raw final hears idle =>
      rw [idle nofun nofun] at hears
      exact h.hears told state nofun raw hears

theorem brings_collect (course : Course) (dir : String) (window : Window) :
    Brings (· = window) (Carries (· = window) own earlier .collecting)
      (conductUnder course (.collect dir window))
      fun _ => Carries (· = window) own earlier .collected := by
  refine brings_conductUnder course (by nofun) (fun p h => ?_) (fun p h => h.told) ?_ ?_
  · rw [h.state]
    show Phase.Ready .collection .collecting
    decide
  · intro p w same
    exact (Option.some.inj same).symm
  · intro p q settlement h phased told'
    cases phased with
    | settled _ _ ready state raw final hears idle => exact h.collected told' state course hears

theorem brings_construct (course : Course) (resources : Resources) (window : Window) :
    Brings (· = window) (Carries (· = window) own earlier .collected)
      (conductUnder course (.construct resources window))
      fun _ => Made (· = window) own earlier (course.closes.filterMap Move.interval?)
        .constructed := by
  refine brings_conductUnder course (by nofun) (fun p h => ?_) (fun p h => h.told) ?_ ?_
  · rw [h.state]
    show Phase.Ready .construction .collected
    decide
  · intro p w same
    exact (Option.some.inj same).symm
  · intro p q settlement h phased told'
    cases phased with
    | settled _ _ ready state raw final hears idle =>
      exact h.constructed told' state raw course hears

theorem brings_conduct_made {c : Command} (required : c.phase.required? = some now)
    (first : c.phase ≠ .collection) (second : c.phase ≠ .construction)
    (silent : ∀ p : Run, (c.call p).window? = none) :
    Brings ok (Made ok own earlier missed now) (c.conduct platform)
      fun _ => Made ok own earlier missed c.phase.settled := by
  have working : c.phase ≠ .cleanup := by
    intro cleanup
    rw [cleanup] at required
    cases required
  rw [← conductUnder_joins []]
  refine brings_conductUnder _ working (fun p h => ?_) (fun p h => h.told) (fun p w some => ?_) ?_
  · intro phase same
    rw [required] at same
    exact h.state.trans (Option.some.inj same)
  · rw [silent p] at some
    cases some
  · intro p q settlement h phased told
    rw [settleUnder_of_other _ first second]
    cases phased with
    | settled _ _ ready state raw final hears idle =>
      rw [c.phase_call] at state idle
      -- The other phases hand over nothing.
      rw [idle first second] at hears
      exact h.hears told state final hears

theorem brings_cleanup (first : now ≠ .cleanedUp) :
    Brings ok (Made ok own earlier missed now) (Conduct.cleanup platform)
      fun _ => Made ok own earlier missed .cleanedUp := by
  intro p h
  have going : p.orchestrator.state ≠ .cleanedUp := by
    rw [h.state]
    exact first
  let request := p.orchestrator.cleanupRequest p.scene.started
  have joined := Stage.joined_join request p.scene
  have hears := Stage.hears_join request p.scene
  rw [p.perform_cleanup platform going]
  rcases joins : platform.join (p.orchestrator.cleanupRequest p.scene.started) p.scene
    with ⟨_ | outcomes, scene⟩
  · rw [show Stage.join request p.scene = (none, scene) from joins] at joined
    refine .inr ⟨.overflow, _, rfl, ?_, h.told.concat joined.ledger nofun⟩
    have busy : scene.inner.standing ≠ .free := fun free => absurd (joined.free.1 free) (by simp)
    exact decide_eq_false busy
  · rw [show Stage.join request p.scene = (some outcomes, scene) from joins] at joined hears
    have none : yields request (some outcomes) = [] :=
      intervals_ofCalls_eq_nil (by decide : Phase.cleanup ≠ .collection) (by decide) _ _
    rw [none] at hears
    -- The recorder, which is closed by now, is closed again.
    have ended : Made ok own earlier missed now { p with scene } :=
      h.hears (h.told.concat joined.ledger nofun) h.state rfl hears
    exact .inl ⟨(), _, rfl, ended.told.congr rfl, rfl, rfl, ended.made⟩

end Schedule

open Schedule (Run Move Slot ToldOnly Brings Carries Made brings_goOn brings_goOn_made
  singleRegistry served)

namespace Session

variable (s : Session) (pace : Pace) (length : Option Duration) {p q : Run}

/-- Nobody is told of a window before there is one, and nothing is lost until it is closed. -/
theorem brings_closeBy :
    Brings (fun _ => False) (Carries (fun _ => False) [] [] .pending) (s.closeBy pace.driver length)
      fun _ => Carries (fun _ => False) [] [] .collecting := by
  have opens : Brings (fun _ => False) (Carries (fun _ => False) [] [] .pending)
      (pace.driver.setUp s.inputs.access) fun _ => Carries (fun _ => False) [] [] .collecting := by
    unfold Driver.setUp
    refine (brings_goOn (pace.between .pending)).bind fun _ => ?_
    refine (Schedule.brings_setup s.inputs.access).bind fun _ => ?_
    exact brings_goOn pace.opens
  unfold closeBy
  refine opens.bind fun _ => ?_
  refine (Schedule.brings_observe (.span length)).bind fun opened => ?_
  -- The session ends its window as anybody else could.
  refine (brings_goOn [.endWindow]).bind fun _ => ?_
  refine (brings_goOn pace.ends).bind fun _ => ?_
  intro p h
  exact .inl ⟨_, p, rfl, h⟩

/-- The window of a session begins when setup is over and ends when it is closed. -/
theorem bounds_of_closeBy {window : Window}
    (closed : p.perform (s.closeBy pace.driver length) = (.ok window, q)) :
    ∃ o : Run, p.perform (pace.driver.setUp s.inputs.access) = (.ok (), o) ∧
      window = ⟨o.world.present, q.world.present⟩ := by
  obtain ⟨⟨⟩, o, opened, rest⟩ := Progress.perform_bind_eq_ok.1 closed
  obtain ⟨began, o', observed, rest⟩ := Progress.perform_bind_eq_ok.1 rest
  refine ⟨o, opened, ?_⟩
  -- The clock is read before the window is kept open.
  have reads : began = (Run.world o).present := by
    rw [Conduct.observe, Progress.perform_bind, Progress.perform_get] at observed
    cases cancelled : o.orchestrator.cancelled <;>
      simp [cancelled, Except.map] at observed <;>
      exact observed.1.symm
  cases rest
  rw [reads]
  rfl

/-- Once the window is closed its interval goes the way of the others, through `Carries` and `Made`
to the report. -/
theorem brings_finishBy (window : Window) {earlier : List Interval} :
    Brings (· = window) (Carries (· = window) [] earlier .collecting)
      (s.finishBy pace.driver window)
      fun report r => report.intervals = r.orchestrator.final ∧
        Made (· = window) [window.interval] earlier
          (pace.constructs.closes.filterMap Move.interval?) .cleanedUp r := by
  have collects : Brings (· = window) (Carries (· = window) [] earlier .collecting)
      (s.collectBy pace.driver window)
      fun _ => Carries (· = window) [window.interval] earlier .collected := by
    unfold collectBy Driver.collect
    refine (brings_goOn pace.records).bind fun _ => ?_
    refine (Schedule.brings_recordInterval window.interval).bind fun _ => ?_
    refine (brings_goOn (pace.between .collecting)).bind fun _ => ?_
    exact Schedule.brings_collect pace.collects _ window
  refine collects.bind fun _ => ?_
  unfold Driver.complete
  refine (brings_goOn (pace.between .collected)).bind fun _ => ?_
  refine (Schedule.brings_construct pace.constructs _ window).bind fun _ => ?_
  -- From here on the final stream stays as it is.
  refine (brings_goOn_made (pace.between .constructed)).bind fun _ => ?_
  refine (Schedule.brings_conduct_made (c := .evaluate) rfl nofun nofun fun _ => rfl).bind
    fun _ => ?_
  refine (brings_goOn_made (pace.between .evaluated)).bind fun _ => ?_
  refine (Schedule.brings_conduct_made (c := .store s.inputs.storageDir s.inputs.suffix
    s.inputs.resources) rfl nofun nofun fun _ => rfl).bind fun _ => ?_
  refine (brings_goOn_made (pace.between .persisted)).bind fun _ => ?_
  have persisted : Phase.storage.settled ≠ .cleanedUp := by decide
  refine (Schedule.brings_cleanup persisted).bind fun _ => ?_
  refine (brings_goOn_made (pace.between .cleanedUp)).bind fun _ => ?_
  intro p h
  refine .inl ⟨_, _, rfl, rfl, ?_⟩
  exact ⟨h.told, h.state, h.closed, h.made⟩

/-- What is certain of a session that gave its `answer` and left the run `r`, once its `window` was
closed and the run was `q`, when `missed` was let in between the end of the last drain and the end
of the recorder. -/
structure Reported (window : Window) (missed : List Interval) (q : Run)
    (answer : Except Halt Report) (r : Run) : Prop where
  /-- Every observer that is told of a window is told of `window`, also if there is no report. -/
  told : ToldOnly (· = window) r
  /-- The final stream is made of the interval of the window, of what the observers handed over, and
  of what others recorded, all of it that was let in before the window was closed included. -/
  made : ∀ report, answer = .ok report → ∃ later,
    r.world.accepted = q.world.accepted ++ later ++ missed ∧
    report.intervals.intervals.Perm
      ([.closed window.opened window.closed "workload" "watchpost-runner" "observation window"] ++
        r.world.handedOver ++ (q.world.accepted ++ later))
  /-- There is a report unless the run was left in the midst of a phase. -/
  halted : ∀ halt, answer = .error halt → r.isFree = false

/-- What is certain of the session `s` that begins at the run `p` and goes on at some `pace`,
whether its window is closed or never. -/
structure OwnInterval (p : Run) : Prop where
  /-- A session whose window is never closed tells nobody of one. It was left in the midst of
  setup. -/
  unclosed : ∀ (halt : Halt) (q : Run),
    p.perform (s.closeBy pace.driver length) = (.error halt, q) →
      p.perform (s.reportBy pace.driver length) = (.error halt, q) ∧ q.isFree = false ∧
        ToldOnly (fun _ => False) q
  /-- The window begins when setup is over and ends when it is closed. -/
  closed : ∀ (window : Window) (q : Run),
    p.perform (s.closeBy pace.driver length) = (.ok window, q) →
      (∃ o : Run, p.perform (pace.driver.setUp s.inputs.access) = (.ok (), o) ∧
        window = ⟨o.world.present, q.world.present⟩) ∧
      Reported window (pace.constructs.closes.filterMap Move.interval?) q
        (p.perform (s.reportBy pace.driver length)).1 (p.perform (s.reportBy pace.driver length)).2
  /-- When nothing goes on beside it the session is the one that `Session.executeWith` executes. -/
  executed : s.executeBy ({} : Pace).driver length = s.executeWith Schedule.platform length

/-- The interval of the window is in the report of every session, whatever goes on beside it before
its start and between any two of its steps, however the window ends and whenever the run is
cancelled: once besides all that the observers handed over and others recorded. -/
theorem own_interval_survives (runId : String) (registry : Registry) (limits : Limits)
    (origin : Nat) (slots : List Slot) :
    s.OwnInterval pace length
      ((Run.new runId registry limits origin).updateScene fun stage =>
        stage.stand .free slots) := by
  have start : Carries (fun _ => False) [] [] .pending _ := .new runId registry limits origin slots
  generalize (Run.new runId registry limits origin).updateScene _ = p at start ⊢
  have closes := s.brings_closeBy pace length p start
  refine ⟨fun halt q halted => ?_, fun window q closed => ?_, s.executeBy_nothing length⟩
  · obtain ⟨_, _, ran, -⟩ | ⟨_, _, ran, busy, told⟩ := closes
    · cases ran.symm.trans halted
    · cases ran.symm.trans halted
      refine ⟨?_, busy, told⟩
      rw [reportBy, Progress.perform_bind, halted]
  · obtain ⟨_, _, ran, carries⟩ | ⟨_, _, ran, -⟩ := closes
    · cases ran.symm.trans closed
      refine ⟨s.bounds_of_closeBy pace length closed, ?_⟩
      have whole : p.perform (s.reportBy pace.driver length) =
          q.perform (s.finishBy pace.driver window) := by
        rw [reportBy, Progress.perform_bind, closed]
      -- All that was let in so far counts as early.
      have told : ToldOnly (· = window) q := carries.told.mono fun _ => False.elim
      have early : Carries (· = window) [] (Run.world q).accepted .collecting q :=
        { carries with told, earlier := List.prefix_rfl }
      rw [whole]
      obtain ⟨report, r, ran, final, made⟩ | ⟨halt, r, ran, busy, told⟩ :=
        s.brings_finishBy pace window q early
      · rw [ran]
        refine ⟨made.told, ?_, fun _ failed => (by cases failed)⟩
        rintro _ ⟨⟩
        obtain ⟨later, accepted, merged⟩ := made.made
        rw [final]
        exact ⟨later, accepted, merged⟩
      · rw [ran]
        exact ⟨told, fun _ reported => (by cases reported), fun _ _ => busy⟩
    · cases ran.symm.trans closed

/-- A session that is cancelled before its start calls nobody, and the interval of its window is in
its report all the same. -/
example :
    let pace : Pace := { between := fun now => if now = .pending then [.cancelRun] else [] }
    let start := (Run.new "" singleRegistry ⟨.ofSecs 60, .ofSecs 60, .ofSecs 5⟩ 0).updateScene
      fun stage => stage.stand .free (served 0 [])
    ((start.perform (judgedSession.reportBy pace.driver none)).1.toOption.map
        fun report => report.intervals.intervals) =
      some [Window.interval ⟨.epoch, .epoch⟩] := by
  decide +kernel

end Session
end Vigil
