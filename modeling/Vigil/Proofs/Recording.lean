import Vigil.Proofs.Schedule.Taking
import Vigil.Proofs.Streams

/-!
# What becomes of recorded intervals

Every interval that the recorder lets in is in the final stream once, except for those that it lets
in between the end of the last drain and its own end. An interval that the recorder refuses leaves
no trace.

The module introduces:

* `World.handedOver`, the intervals that the calls of a run handed over;
* `Hears`, what a part of a run adds to these and to what waits in the recorder;
* `Phased`, what a working phase does to a run before it takes what was recorded;
* `Waiting` and `Ended`, the invariants of runs before and after construction;
* `Recording`, what is certain of a run that was constructed.
-/

namespace Vigil

theorem intervals_ofCalls_eq_nil {phase : Phase} (first : phase ≠ .collection)
    (second : phase ≠ .construction) (targets : List Registration) (outcomes : List CallOutcome) :
    (Settlement.ofCalls phase targets outcomes).intervals = [] := by
  rw [Settlement.intervals_ofCalls, List.flatMap_eq_nil_iff]
  intro c _
  cases outcome : c.2 with
  | returned yield =>
    cases phase with
    | collection => exact absurd rfl first
    | construction => exact absurd rfl second
    | _ => rfl
  | _ => rfl

namespace Schedule

/-- The intervals that the calls of `request` add to a run. Calls that are never joined add none. -/
def yields (request : JoinRequest) (outcomes : Option (List CallOutcome)) : List Interval :=
  match outcomes with
  | some outcomes => (Settlement.ofCalls request.call.phase request.targets outcomes).intervals
  | none => []

/-- The intervals that the calls of a run handed over, phase by phase and in the order of the
observers. -/
def World.handedOver (w : World) : List Interval := w.ledger.flatMap fun e => yields e.1 e.2

/-- While the stage `s` became `s'`, calls handed over the intervals of `added`. What was recorded
meanwhile waits. -/
structure Hears (s s' : Stage) (added : List Interval) : Prop where
  handed : s'.inner.handedOver = s.inner.handedOver ++ added
  closed : s'.recorder.closed = s.recorder.closed
  /-- What was let in waits, and a closed recorder lets nothing in. -/
  recorded : ∃ new, s'.recorder.queue = s.recorder.queue ++ new ∧
    s'.inner.accepted = s.inner.accepted ++ new ∧ (s.recorder.closed = true → new = [])

namespace Hears

variable {s s' t t' : Stage} {added : List Interval}

theorem congr (h : Hears s s' added) (inner : t.inner = s.inner)
    (recorder : t.recorder = s.recorder) (inner' : t'.inner = s'.inner)
    (recorder' : t'.recorder = s'.recorder) : Hears t t' added := by
  refine ⟨?_, ?_, ?_⟩
  · rw [inner', inner]
    exact h.handed
  · rw [recorder', recorder]
    exact h.closed
  · rw [inner', inner, recorder', recorder]
    exact h.recorded

theorem refl (s : Stage) : Hears s s [] where
  handed := (List.append_nil _).symm
  closed := rfl
  recorded := ⟨[], by simp, by simp, fun _ => rfl⟩

theorem trans {s'' : Stage} (first : Hears s s' added) (second : Hears s' s'' []) :
    Hears s s'' added where
  handed := by rw [second.handed, first.handed, List.append_nil]
  closed := second.closed.trans first.closed
  recorded := by
    obtain ⟨new, queue, accepted, none⟩ := first.recorded
    obtain ⟨new', queue', accepted', none'⟩ := second.recorded
    refine ⟨new ++ new', ?_, ?_, fun closed => ?_⟩
    · rw [queue', queue, List.append_assoc]
    · rw [accepted', accepted, List.append_assoc]
    · rw [none closed, none' (first.closed.trans closed), List.append_nil]

/-- Nothing is added to a stage that drifts, unless the recorder lets something in. -/
theorem of_drift (drift : Drift Task.Later s s')
    (silent : s.recorder.closed = true → s'.inner.accepted = s.inner.accepted) : Hears s s' [] where
  handed := by
    rw [World.handedOver, drift.world.ledger, List.append_nil]
    rfl
  closed := drift.closed
  recorded := by
    obtain ⟨new, queue, accepted⟩ := drift.recorded
    refine ⟨new, queue, accepted, fun closed => ?_⟩
    rw [silent closed] at accepted
    exact List.self_eq_append_right.1 accepted

theorem of_idles {r r' : Run} (idles : Idles r r') : Hears r.scene r'.scene [] :=
  .of_drift idles.drift idles.silent

theorem accepted_eq (h : Hears s s' added) (closed : s.recorder.closed = true) :
    s'.inner.accepted = s.inner.accepted := by
  obtain ⟨new, -, accepted, none⟩ := h.recorded
  rw [accepted, none closed, List.append_nil]

theorem queue_eq (h : Hears s s' added) (taken : List Interval)
    (waits : s.inner.accepted = taken ++ s.recorder.queue) :
    s'.inner.accepted = taken ++ s'.recorder.queue := by
  obtain ⟨new, queue, accepted, -⟩ := h.recorded
  rw [accepted, waits, queue, List.append_assoc]

end Hears

namespace Stage

theorem move_record_of_refused (s : Stage) (i : Interval)
    (refused : (s.recorder.record i).1 ≠ .ok ()) : s.move (.record i) = s := by
  cases closed : s.recorder.closed with
  | true => simp [move, Recorder.record, closed]
  | false => exact absurd (by simp [Recorder.record, closed]) refused

theorem hears_move (s : Stage) (m : Move) : Hears s (s.move m) [] := by
  refine .of_drift ((drift_move s m).mono fun _ _ h => h.toLater) fun closed => ?_
  cases m with
  | record i => simp [move, Recorder.record, closed]
  | _ => rfl

theorem hears_moves (moves : List Move) (s : Stage) : Hears s (moves.foldl move s) [] := by
  induction moves generalizing s with
  | nil => exact .refl s
  | cons m moves ih => exact (hears_move s m).trans (ih (s.move m))

theorem accepted_moves (moves : List Move) {s : Stage} (going : s.recorder.closed = false) :
    (moves.foldl move s).inner.accepted = s.inner.accepted ++ moves.filterMap Move.interval? := by
  induction moves generalizing s with
  | nil => exact (List.append_nil _).symm
  | cons m moves ih =>
    have going' : (s.move m).recorder.closed = false := (drift_move s m).closed.trans going
    rw [List.foldl_cons, ih going']
    cases m with
    | record i => simp [move, Recorder.record, going, Move.interval?]
    | _ => rfl

/-- The join of a new round adds what its calls hand over, and nothing that waits is lost. -/
theorem hears_join (request : JoinRequest) (s : Stage) :
    Hears s (s.join request).2 (yields request (s.join request).1) where
  handed := by
    rw [World.handedOver, (joined_join request s).ledger, List.flatMap_append]
    simp [World.handedOver]
  closed := (joined_join request s).closed
  recorded := by
    obtain ⟨new, queue, accepted⟩ := (joined_join request s).recorded
    refine ⟨new, queue, accepted, fun closed => ?_⟩
    have same := join_invariant
      (P := fun t => t.recorder.closed = true ∧ t.inner.accepted = s.inner.accepted)
      (fun t m h => ⟨(drift_move t m).closed.trans h.1,
        ((hears_move t m).accepted_eq h.1).trans h.2⟩)
      (fun t w kept h => ⟨h.1, kept.trans h.2⟩) request ⟨closed, rfl⟩
    rw [same.2] at accepted
    exact List.self_eq_append_right.1 accepted

end Stage

/-! ## Phases -/

/-- What a working phase does to the run `p` before it takes what was recorded: it is refused,
halted in the midst of its calls, or settled. -/
inductive Phased (call : Call) (p : Run) : Except Halt (Option Settlement) → Run → Prop
  | refused (halt : Halt) (unready : ¬call.phase.Ready p.orchestrator.state) :
    Phased call p (.error halt) p
  | halted (halt : Halt) (q : Run) (ready : call.phase.Ready p.orchestrator.state)
    (busy : q.isFree = false) (state : q.orchestrator.state = call.phase.settled)
    (final : q.orchestrator.final = p.orchestrator.final) (hears : Hears p.scene q.scene []) :
    Phased call p (.error halt) q
  | settled (settlement : Option Settlement) (q : Run)
    (ready : call.phase.Ready p.orchestrator.state)
    (state : q.orchestrator.state = call.phase.settled)
    (raw : q.orchestrator.raw = p.orchestrator.raw)
    (final : q.orchestrator.final = p.orchestrator.final)
    (hears : Hears p.scene q.scene (settlement.getD {}).intervals)
    (idle : call.phase ≠ .collection → call.phase ≠ .construction →
      (settlement.getD {}).intervals = []) :
    Phased call p (.ok settlement) q

/-- Every working phase does one of the things that `Phased` lists. -/
theorem phased {p q : Run} {call : Call} {answer : Except Halt (Option Settlement)}
    (performed : p.perform (Conduct.phase platform call) = (answer, q)) :
    Phased call p answer q := by
  have joined := Stage.joined_join (p.requestOf call) (p.sceneOf call.phase)
  have hears := Stage.hears_join (p.requestOf call) (p.sceneOf call.phase)
  cases Progress.phaseResult performed with
  | refused unready => exact .refused _ unready
  | skipped ready => exact .settled none _ ready rfl rfl rfl (.refl p.scene) fun _ _ => rfl
  | unjoined scene ready _ joins =>
    rw [show Stage.join _ _ = (none, scene) from joins] at joined hears
    refine .halted .overflow _ ready ?_ rfl rfl ?_
    · -- A join that panics leaves the run in the midst of its calls.
      have busy : ¬scene.inner.standing = .free := by simpa using joined.free
      exact decide_eq_false busy
    · exact hears.congr (by simp) (by simp) rfl rfl
  | joined outcomes scene ready _ joins =>
    rw [show Stage.join _ _ = (some outcomes, scene) from joins] at hears
    refine .settled _ _ ready rfl rfl rfl ?_ fun first second => ?_
    · exact hears.congr (by simp) (by simp) rfl rfl
    · exact intervals_ofCalls_eq_nil first second _ _

/-- What cleanup does to a run: nothing, or its calls, after which it closes the recorder. -/
theorem cleaned (p : Run) :
    (p.perform (Conduct.cleanup platform)).2 = p ∨ ∃ scene, Hears p.scene scene [] ∧
      (scene.inner.standing ≠ .free ∧
          (p.perform (Conduct.cleanup platform)).2 = { p with scene } ∨
        ∃ outcomes, (p.perform (Conduct.cleanup platform)).2 = p.cleanedWith outcomes scene) := by
  let request := p.orchestrator.cleanupRequest p.scene.started
  have joined := Stage.joined_join request p.scene
  have hears := Stage.hears_join request p.scene
  rcases performed : p.perform (Conduct.cleanup platform) with ⟨answer, q⟩
  cases Progress.cleanupResult performed with
  | again => exact .inl rfl
  | unjoined scene _ joins =>
    rw [show Stage.join request p.scene = (none, scene) from joins] at joined hears
    refine .inr ⟨scene, hears, .inl ⟨?_, rfl⟩⟩
    simpa using joined.free
  | joined outcomes scene _ joins =>
    rw [show Stage.join request p.scene = (some outcomes, scene) from joins] at hears
    refine .inr ⟨scene, ?_, .inr ⟨outcomes, rfl⟩⟩
    -- Cleanup hands over nothing, whatever its calls return.
    have none : yields request (some outcomes) = [] :=
      intervals_ofCalls_eq_nil (by decide : Phase.cleanup ≠ .collection) (by decide) _ _
    rw [none] at hears
    exact hears

/-! ## What waits until construction -/

/-- What was recorded waits until collection takes it, and what is recorded from then on waits until
construction: the invariant of a run before its final stream. -/
structure Waiting (r : Run) : Prop where
  early : r.orchestrator.state.rank < 2 → r.scene.recorder.closed = false ∧
    r.world.accepted = r.scene.recorder.queue ∧ r.world.handedOver = []
  between : r.orchestrator.state.rank = 2 → r.isFree = true → r.scene.recorder.closed = false ∧
    ∃ taken, r.world.accepted = taken ++ r.scene.recorder.queue ∧
      r.orchestrator.raw.intervals.Perm (r.world.handedOver ++ taken)

namespace Waiting

variable {p q : Run}

theorem new (runId : String) (registry : Registry) (limits : Limits) (origin : Nat) :
    Waiting (Run.new runId registry limits origin) where
  early _ := ⟨rfl, rfl, rfl⟩
  between two := absurd two (by change ¬State.pending.rank = 2; decide)

theorem hears (h : Waiting p)
    (early : q.orchestrator.state.rank < 2 → p.orchestrator.state.rank < 2)
    (between : q.orchestrator.state.rank = 2 → q.isFree = true →
      p.orchestrator.state.rank = 2 ∧ p.isFree = true ∧ q.orchestrator.raw = p.orchestrator.raw)
    (hears : Hears p.scene q.scene []) : Waiting q := by
  have handed : q.world.handedOver = p.world.handedOver := by
    rw [← List.append_nil p.world.handedOver]
    exact hears.handed
  refine ⟨fun before => ?_, fun two free => ?_⟩
  · obtain ⟨going, waits, none⟩ := h.early (early before)
    exact ⟨hears.closed.trans going, hears.queue_eq [] waits, handed.trans none⟩
  · obtain ⟨two', free', raw⟩ := between two free
    obtain ⟨going, taken, waits, made⟩ := h.between two' free'
    refine ⟨hears.closed.trans going, taken, hears.queue_eq taken waits, ?_⟩
    rw [handed, raw]
    exact made

theorem idles (h : Waiting p) (idles : Idles p q) : Waiting q := by
  refine h.hears ?_ (fun two free => ⟨?_, ?_, ?_⟩) (.of_idles idles)
  · rw [idles.orchestrator]
    exact id
  · rw [← idles.orchestrator]
    exact two
  · rw [← idles.isFree_eq]
    exact free
  · rw [idles.orchestrator]

theorem of_past (past : 3 ≤ q.orchestrator.state.rank) : Waiting q where
  early early := by omega
  between two := by omega

/-- Collection puts what was recorded into the raw stream, and what its calls handed over, whatever
goes on meanwhile. -/
theorem collected (h : Waiting p) (one : p.orchestrator.state.rank = 1)
    (two : q.orchestrator.state.rank = 2) (course : Course) (dir : String) (window : Window)
    {settlement : Option Settlement}
    (hears : Hears p.scene q.scene (settlement.getD {}).intervals) :
    Waiting (settleUnder course (.collect dir window) settlement q) := by
  obtain ⟨going, waits, none⟩ := h.early (by omega)
  obtain ⟨moves, taken⟩ := Stage.take_eq course.takes q.scene
  have later := Stage.hears_moves moves q.scene
  let s := moves.foldl Stage.move q.scene
  have handed : s.inner.handedOver = (settlement.getD {}).intervals := by
    rw [later.handed, hears.handed, List.append_nil]
    exact congrArg (· ++ _) none
  refine ⟨fun early => ?_, fun _ _ => ⟨?_, s.recorder.queue, ?_, ?_⟩⟩
  · rw [state_settleUnder] at early
    omega
  all_goals simp only [settleUnder, taken]
  · exact (later.closed.trans hears.closed).trans going
  · -- All that was ever let in is taken now.
    have all := later.queue_eq [] (hears.queue_eq [] waits)
    exact all.trans (List.append_nil _).symm
  · change (List.mergeSort _ _).Perm (s.inner.handedOver ++ _)
    rw [handed]
    exact (List.mergeSort_perm _ _).trans List.perm_append_comm

/-- A command keeps what waits, unless construction takes it: the step lemma of `Waiting`. -/
theorem asks (h : Waiting p) (c : Command) (course : Course) :
    Waiting (p.perform (conductUnder course c)).2 := by
  by_cases working : c.phase = .cleanup
  · rw [Command.eq_cleanup working]
    obtain same | ⟨scene, hears, ⟨busy, same⟩ | ⟨outcomes, same⟩⟩ := cleaned p
    all_goals
      rw [show conductUnder course .cleanup = Conduct.cleanup platform from rfl, same]
    · exact h
    · exact h.hears id (fun _ free => absurd (of_decide_eq_true free) busy) hears
    · exact of_past (by change 3 ≤ State.cleanedUp.rank; decide)
  · rw [perform_conductUnder course working]
    rcases performed : p.perform (Conduct.phase platform (c.call p)) with ⟨answer, q⟩
    cases phased performed with
    | refused halt unready => exact h
    | halted halt _ ready busy state final hears =>
      rw [Command.phase_call] at ready state
      have next := ready.rank_settled working
      refine h.hears (fun early => ?_) (fun _ free => ?_) hears
      · rw [state] at early
        omega
      · exact absurd free (by simp [busy])
    | settled settlement _ ready state raw final hears idle =>
      rw [Command.phase_call] at ready state idle
      have next := ready.rank_settled working
      have rank := congrArg State.rank state
      -- Only the first two phases leave anything that waits for construction.
      have past (late : 3 ≤ c.phase.settled.rank) :
          Waiting (settleUnder course c settlement q) := by
        refine of_past ?_
        rw [state_settleUnder]
        omega
      cases c with
      | setup access =>
        rw [idle nofun nofun] at hears
        have one : q.orchestrator.state.rank = 1 := rank
        exact h.hears (fun _ => by omega) (fun two => absurd (one.symm.trans two) (by decide)) hears
      | collect dir window =>
        have two : q.orchestrator.state.rank = 2 := rank
        exact h.collected (by omega) two course dir window hears
      | construct | evaluate | store => exact past (Nat.le_of_ble_eq_true rfl)
      | cleanup => exact absurd rfl working

end Waiting

/-- Whatever happens to a run, what was recorded waits until it is taken: `Waiting` after any
steps. -/
theorem waiting_after (runId : String) (registry : Registry) (limits : Limits) (origin : Nat)
    (steps : List Step) : Waiting ((Run.new runId registry limits origin).afterSteps steps) :=
  Run.afterSteps_invariant (.new runId registry limits origin) Waiting.idles
    (fun c course h => h.asks c course) steps

/-! ## What is lost when the recorder is closed -/

/-- Construction takes all that waits, but not what is let in from then until the recorder is
closed, which is what `course.closes` records. -/
theorem Waiting.constructed {p q : Run} (h : Waiting p) (free : p.isFree = true) (course : Course)
    {resources : Resources} {window : Window}
    (returned : p.perform (conductUnder course (.construct resources window)) = (.ok (), q)) :
    3 ≤ q.orchestrator.state.rank ∧ q.scene.recorder.closed = true ∧
      ∃ kept, q.world.accepted = kept ++ course.closes.filterMap Move.interval? ∧
        q.orchestrator.final.intervals.Perm (q.world.handedOver ++ kept) := by
  have working : (Command.construct resources window).phase ≠ .cleanup := nofun
  rw [perform_conductUnder course working] at returned
  rcases performed :
      p.perform (Conduct.phase platform (Command.call (.construct resources window) p)) with
    ⟨answer, p'⟩
  rw [performed] at returned
  cases phased performed with
  | refused | halted => cases returned
  | settled settlement _ ready state raw final hears idle =>
    cases returned
    have next := ready.rank_settled working
    have three : p'.orchestrator.state.rank = 3 := congrArg State.rank state
    have two : p.orchestrator.state.rank = 2 := by
      rw [← state] at next
      omega
    obtain ⟨going, taken, waits, made⟩ := h.between two free
    obtain ⟨moves, took⟩ := Stage.take_eq course.takes p'.scene
    -- The last drain ends here; from now on nothing is taken any more.
    let s := moves.foldl Stage.move p'.scene
    let s' := course.closes.foldl Stage.move s.drained
    have before : Hears p.scene s (settlement.getD {}).intervals :=
      hears.trans (Stage.hears_moves moves p'.scene)
    have later : Hears s.drained s' [] := Stage.hears_moves course.closes s.drained
    have handed : s'.inner.handedOver =
        p.world.handedOver ++ (settlement.getD {}).intervals := by
      rw [later.handed, List.append_nil]
      exact before.handed
    simp only [settleUnder, took]
    refine ⟨Nat.le_of_eq three.symm, rfl, taken ++ s.recorder.queue, ?_, ?_⟩
    · rw [← before.queue_eq taken waits]
      exact Stage.accepted_moves course.closes (before.closed.trans going)
    · change (List.mergeSort _ _).Perm (s'.inner.handedOver ++ (taken ++ s.recorder.queue))
      refine (List.mergeSort_perm _ _).trans ?_
      rw [handed, raw]
      calc p.orchestrator.raw.intervals ++ (settlement.getD {}).intervals ++ s.recorder.queue
        _ |>.Perm (p.world.handedOver ++ taken ++ (settlement.getD {}).intervals
            ++ s.recorder.queue) := (made.append_right _).append_right _
        _ |>.Perm (p.world.handedOver ++ (settlement.getD {}).intervals
            ++ (taken ++ s.recorder.queue)) := by
          simp only [List.append_assoc]
          exact List.Perm.append_left _ (List.perm_append_comm_assoc ..)

/-- `r` is what has become of a run `q` that was constructed: its recorder is closed, and nothing is
added any more. -/
structure Ended (q r : Run) : Prop where
  past : 3 ≤ r.orchestrator.state.rank
  closed : r.scene.recorder.closed = true
  final : r.orchestrator.final = q.orchestrator.final
  accepted : r.world.accepted = q.world.accepted
  handed : r.world.handedOver = q.world.handedOver

namespace Ended

variable {q r r' : Run}

theorem hears (h : Ended q r) (past : 3 ≤ r'.orchestrator.state.rank)
    (final : r'.orchestrator.final = r.orchestrator.final) (hears : Hears r.scene r'.scene []) :
    Ended q r' where
  past := past
  closed := hears.closed.trans h.closed
  final := final.trans h.final
  accepted := (hears.accepted_eq h.closed).trans h.accepted
  handed := by
    rw [← h.handed, ← List.append_nil r.world.handedOver]
    exact hears.handed

theorem idles (h : Ended q r) (idles : Idles r r') : Ended q r' := by
  refine h.hears ?_ ?_ (.of_idles idles)
  · rw [idles.orchestrator]
    exact h.past
  · rw [idles.orchestrator]

theorem asks (h : Ended q r) (c : Command) (course : Course) :
    Ended q (r.perform (conductUnder course c)).2 := by
  by_cases working : c.phase = .cleanup
  · rw [Command.eq_cleanup working]
    obtain same | ⟨scene, hears, ⟨-, same⟩ | ⟨outcomes, same⟩⟩ := cleaned r
    all_goals
      rw [show conductUnder course .cleanup = Conduct.cleanup platform from rfl, same]
    · exact h
    · exact h.hears h.past rfl hears
    · have ended : Ended q { r with scene } := h.hears h.past rfl hears
      have past : 3 ≤ State.cleanedUp.rank := by decide
      exact { ended with past, closed := rfl }
  · rw [perform_conductUnder course working]
    rcases performed : r.perform (Conduct.phase platform (c.call r)) with ⟨answer, r'⟩
    cases phased performed with
    | refused halt unready => exact h
    | halted halt _ ready busy state final hears =>
      rw [Command.phase_call] at ready state
      have next := ready.rank_settled working
      have past := h.past
      have past' : 3 ≤ r'.orchestrator.state.rank := by
        rw [state]
        omega
      exact h.hears past' final hears
    | settled settlement _ ready state raw final hears idle =>
      rw [Command.phase_call] at ready state idle
      have next := ready.rank_settled working
      have past := h.past
      have past' : 3 ≤ r'.orchestrator.state.rank := by
        rw [state]
        omega
      -- The phases that take what was recorded are over.
      have first : c.phase ≠ .collection := by
        intro collection
        rw [collection] at next
        have two : Phase.collection.settled.rank = 2 := rfl
        omega
      have second : c.phase ≠ .construction := by
        intro construction
        rw [construction] at next
        have three : Phase.construction.settled.rank = 3 := rfl
        omega
      dsimp only
      rw [settleUnder_of_other course first second]
      rw [idle first second] at hears
      exact h.hears past' final hears

end Ended

/-- What is certain of a run `q` that was constructed, when `missed` was let in between the end of
the last drain and the end of the recorder. -/
structure Recording (q : Run) (missed : List Interval) : Prop where
  /-- The final stream is made of what the observers handed over and of all intervals that were let
  in, except for those that were `missed`. -/
  made : ∃ kept, q.world.accepted = kept ++ missed ∧
    q.orchestrator.final.intervals.Perm (q.world.handedOver ++ kept)
  /-- Every interval that was let in is there once, besides what the observers handed over, exactly
  if none was missed. -/
  once : (∀ i, q.orchestrator.final.intervals.count i =
    q.world.handedOver.count i + q.world.accepted.count i) ↔ missed = []
  /-- From then on every interval is refused, and nothing changes any more, whatever steps
  follow. -/
  ended : ∀ more, Ended q (q.afterSteps more)

/-- What becomes of the intervals that are recorded while a run goes on, whatever is asked of it
before and later, and whatever goes on beside it between any two of its steps: `Recording`, once it
was constructed. An interval that is refused leaves no trace. -/
theorem exact_recording (runId : String) (registry : Registry) (limits : Limits) (origin : Nat)
    (before : List Step) (resources : Resources) (window : Window) (course : Course)
    (free : ((Run.new runId registry limits origin).afterSteps before).isFree = true)
    (returned : (((Run.new runId registry limits origin).afterSteps before).askUnder
      (.construct resources window) course).1 = .ok ()) :
    Recording
        (((Run.new runId registry limits origin).afterSteps before).askUnder
          (.construct resources window) course).2
        (course.closes.filterMap Move.interval?) ∧
      ∀ (s : Stage) (i : Interval), (s.recorder.record i).1 ≠ .ok () → s.move (.record i) = s := by
  refine ⟨?_, Stage.move_record_of_refused⟩
  have waiting := waiting_after runId registry limits origin before
  generalize (Run.new runId registry limits origin).afterSteps before = p at free returned waiting ⊢
  rcases performed : p.askUnder (.construct resources window) course with ⟨answer, q⟩
  rw [performed] at returned
  cases returned
  dsimp only
  -- Until construction returns all that was let in waits or is in the raw stream.
  have standing := waiting.idles (idles_stand free course.joins)
  obtain ⟨past, closed, kept, accepted, made⟩ := standing.constructed rfl course performed
  refine ⟨⟨kept, accepted, made⟩, ⟨fun once => ?_, fun none i => ?_⟩, fun more => ?_⟩
  · rw [List.eq_nil_iff_forall_not_mem]
    intro i missed
    -- It was let in once more than the stream has it.
    have some := List.count_pos_iff.2 missed
    have counted := once i
    rw [accepted, made.count_eq, List.count_append, List.count_append] at counted
    omega
  · rw [accepted, none, List.append_nil, made.count_eq, List.count_append]
  · exact Run.afterSteps_invariant ⟨past, closed, rfl, rfl, rfl⟩ Ended.idles
      (fun c course h => h.asks c course) more

def silentSteps : List Step :=
  [.command (.setup ⟨"", none, none, none, none, false⟩) { joins := served 0 [.failed .emptyName] },
   .command (.collect "" default) { joins := served 1 [.failed .emptyName] }]

/-- An interval is recorded after the last drain found nothing, before the recorder is closed. -/
def lateCourse : Course where
  joins := served 2 [.failed .emptyName]
  takes := [.run]
  closes := [.record tie]

def singleRegistry : Registry where
  entries := [⟨"a", "x"⟩]
  distinct := by decide
  named := by decide

theorem exact_recording_of_late :
    Recording
      (((Run.new "" singleRegistry ⟨.ofSecs 60, .ofSecs 60, .ofSecs 5⟩ 0).afterSteps
        silentSteps).askUnder (.construct .empty default) lateCourse).2 [tie] :=
  (exact_recording "" singleRegistry ⟨.ofSecs 60, .ofSecs 60, .ofSecs 5⟩ 0 silentSteps .empty
    default lateCourse (by decide +kernel) (by decide +kernel)).1

/-- Under `lateCourse` the recorder lets the late interval in, but it is in no stream. -/
theorem lost_late_interval :
    let p :=
      (Run.new "" singleRegistry ⟨.ofSecs 60, .ofSecs 60, .ofSecs 5⟩ 0).afterSteps silentSteps
    let q := (p.askUnder (.construct .empty default) lateCourse).2
    (p.askUnder (.construct .empty default) lateCourse).1 = .ok () ∧
      q.world.accepted = [tie] ∧ q.orchestrator.final.intervals = [] := by
  decide +kernel

end Schedule
end Vigil
