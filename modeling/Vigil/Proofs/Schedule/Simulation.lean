import Vigil.Proofs.Schedule.Commands

/-!
# Platforms that follow schedules

A platform follows schedules if each of its joins does what a join under some schedule does. All
that happens to an orchestrator on such a platform can then happen to a run under schedules, so what
holds of all runs under schedules holds on the platform.

The module introduces:

* `Beside`, what a scene may become beside the orchestrator, and `Agree`, when two scenes are the
  same for the orchestrator;
* `Scheduled`, the platforms that follow schedules;
* `Reached`, what an orchestrator may come to on a platform, and `Meets`, when a run has come to the
  same.
-/

namespace Vigil

/-- The scene `s'` is what may become of `s` beside the orchestrator: time passes, switches are
thrown, and intervals are recorded. -/
structure Scene.Beside {ε : Type} (s s' : Scene ε) : Prop where
  origin : s'.origin = s.origin
  clock : s.clock ≤ s'.clock
  windowEnded : s.controls.windowEnded = true → s'.controls.windowEnded = true
  runCancelled : s.controls.runCancelled = true → s'.controls.runCancelled = true
  started : s'.started = s.started
  recorder : ∃ new, s'.recorder = { s.recorder with queue := s.recorder.queue ++ new } ∧
    (s.recorder.closed = true → new = [])

namespace Scene.Beside

variable {ε : Type} {s s' s'' : Scene ε}

theorem refl (s : Scene ε) : s.Beside s :=
  ⟨rfl, Nat.le_refl _, id, id, rfl, [], by simp, fun _ => rfl⟩

theorem trans (first : s.Beside s') (second : s'.Beside s'') : s.Beside s'' where
  origin := second.origin.trans first.origin
  clock := Nat.le_trans first.clock second.clock
  windowEnded h := second.windowEnded (first.windowEnded h)
  runCancelled h := second.runCancelled (first.runCancelled h)
  started := second.started.trans first.started
  recorder := by
    obtain ⟨new, recorder, closed⟩ := first.recorder
    obtain ⟨new', recorder', closed'⟩ := second.recorder
    refine ⟨new ++ new', ?_, fun h => ?_⟩
    · rw [recorder', recorder, List.append_assoc]
    · rw [closed h, closed' (by rw [recorder]; exact h), List.append_nil]

theorem of_eq (origin : s'.origin = s.origin) (clock : s'.clock = s.clock)
    (controls : s'.controls = s.controls) (started : s'.started = s.started)
    (recorder : s'.recorder = s.recorder) : s.Beside s' where
  origin := origin
  clock := Nat.le_of_eq clock.symm
  windowEnded h := by rw [controls]; exact h
  runCancelled h := by rw [controls]; exact h
  started := started
  recorder := ⟨[], by rw [recorder, List.append_nil], fun _ => rfl⟩

theorem foldl {α : Type} {f : Scene ε → α → Scene ε} (step : ∀ s a, Scene.Beside s (f s a))
    (l : List α) (s : Scene ε) : s.Beside (l.foldl f s) := by
  induction l generalizing s with
  | nil => exact .refl s
  | cons a l ih => exact (step s a).trans (ih (f s a))

end Scene.Beside

namespace Schedule

/-- A scene of some platform and a scene under a schedule are the same in all that the orchestrator
reads of them. -/
structure Agree {ε : Type} (s : Scene ε) (t : Stage) : Prop where
  origin : t.origin = s.origin
  clock : t.clock = s.clock
  controls : t.controls = s.controls
  started : t.started = s.started
  recorder : t.recorder = s.recorder

namespace Stage

theorem foldl_move_record {t : Stage} (going : t.recorder.closed = false) (new : List Interval) :
    (new.map Move.record).foldl move t =
      { t with
        recorder := { t.recorder with queue := t.recorder.queue ++ new }
        inner := { t.inner with accepted := t.inner.accepted ++ new } } := by
  induction new generalizing t with
  | nil => simp
  | cons i new ih =>
    have first : t.move (.record i) =
        { t with
          recorder := { t.recorder with queue := t.recorder.queue ++ [i] }
          inner := { t.inner with accepted := t.inner.accepted ++ [i] } } := by
      simp [move, Recorder.record, going]
    rw [List.map_cons, List.foldl_cons, first, ih (by exact going)]
    simp

/-- What goes on before the next step of the run, as the first slots of `await`. -/
theorem await_beside (request : JoinRequest) (round : Nat) (moves : List Move) (slots : List Slot)
    (j : Option Join) (t : Stage) :
    await request round (moves.map .beside ++ slots) j t =
      await request round slots j (moves.foldl move t) := by
  induction moves generalizing t with
  | nil => rfl
  | cons m moves ih => exact ih (t.move m)

theorem move_stand (t : Stage) (standing : Standing) (kept : List Slot) (m : Move) :
    (t.stand standing kept).move m = (t.move m).stand standing kept := by
  cases m with
  | record i =>
    cases closed : t.recorder.closed <;> simp [move, stand, updateWorld, Recorder.record, closed]
  | _ => rfl

/-- The schedule that a scene has kept is of no matter to a join that is given one. -/
theorem await_stand (request : JoinRequest) (round : Nat) (slots : List Slot) (j : Option Join)
    (standing : Standing) (kept : List Slot) (t : Stage) :
    await request round slots j (t.stand standing kept) = await request round slots j t := by
  induction slots generalizing j t with
  | nil => rfl
  | cons slot slots ih =>
    cases slot with
    | beside m =>
      rw [await, move_stand, ih]
      rfl
    | run =>
      have ended : (t.stand standing kept).inner.isOver round = t.inner.isOver round := rfl
      have turned : (t.stand standing kept).turn? request round j = t.turn? request round j := rfl
      have aborted (stop : Option Nat) :
          (t.stand standing kept).abort round stop = (t.abort round stop).stand standing kept := by
        cases stop <;> rfl
      simp only [await, ended, turned, aborted, ih]
      rfl

end Stage

/-- The moves that throw those switches that are thrown in `controls`. -/
def switches (controls : Controls) : List Move :=
  (if controls.windowEnded then [.endWindow] else []) ++
    if controls.runCancelled then [.cancelRun] else []

theorem foldl_move_switches {t : Stage} {controls : Controls}
    (windowEnded : t.controls.windowEnded = true → controls.windowEnded = true)
    (runCancelled : t.controls.runCancelled = true → controls.runCancelled = true) :
    (switches controls).foldl Stage.move t = { t with controls } := by
  obtain ⟨origin, clock, ⟨w, c⟩, recorder, started, files, emitted, inner⟩ := t
  obtain ⟨w', c'⟩ := controls
  -- A switch that is not to be thrown was not thrown before.
  cases w' <;> cases c' <;> simp at windowEnded runCancelled <;>
    simp_all [switches, Stage.move, Controls.endWindow, Controls.cancelRun]

/-- Whatever becomes of a scene beside the orchestrator can become, by some moves, of a scene under
a schedule that agrees with it, while the tasks stay as they are. -/
theorem Agree.exists_moves {ε : Type} {s s' : Scene ε} {t : Stage} (agree : Agree s t)
    (beside : s.Beside s') :
    ∃ moves : List Move, Agree s' (moves.foldl Stage.move t) ∧
      (moves.foldl Stage.move t).inner.rounds = t.inner.rounds ∧
      (moves.foldl Stage.move t).inner.standing = t.inner.standing := by
  obtain ⟨new, recorder, closed⟩ := beside.recorder
  -- Time passes first, then switches are thrown, and then intervals are recorded.
  have switched : (switches s'.controls).foldl Stage.move (t.move (.elapse (s'.clock - s.clock))) =
      { t with clock := t.clock + (s'.clock - s.clock), controls := s'.controls } :=
    foldl_move_switches
      (fun h => beside.windowEnded (by rw [← agree.controls]; exact h))
      (fun h => beside.runCancelled (by rw [← agree.controls]; exact h))
  have clock : t.clock + (s'.clock - s.clock) = s'.clock := by
    rw [agree.clock]
    exact Nat.add_sub_cancel' beside.clock
  have origin : t.origin = s'.origin := agree.origin.trans beside.origin.symm
  refine ⟨.elapse (s'.clock - s.clock) :: (switches s'.controls ++ new.map .record), ?_⟩
  rw [List.foldl_cons, List.foldl_append, switched, clock]
  cases going : t.recorder.closed with
  | true =>
    -- A recorder that is closed takes nothing.
    obtain rfl := closed (by rw [← agree.recorder]; exact going)
    refine ⟨⟨origin, rfl, rfl, agree.started.trans beside.started.symm, ?_⟩, rfl, rfl⟩
    rw [recorder, List.append_nil]
    exact agree.recorder
  | false =>
    have recorded := Stage.foldl_move_record
      (t := { t with clock := s'.clock, controls := s'.controls }) going new
    rw [recorded]
    refine ⟨⟨origin, rfl, rfl, agree.started.trans beside.started.symm, ?_⟩, rfl, rfl⟩
    rw [recorder, ← agree.recorder]

/-- The platform `P` follows schedules: whatever its join does to a scene, the join under some
schedule does to a scene that agrees with it. What is proved of all schedules then holds on `P`. -/
structure Scheduled {ε : Type} (P : Platform ε) : Prop where
  join : ∀ request s outcomes s', P.Makes request s outcomes s' → ∀ t : Stage, Agree s t →
    ∃ slots t', (t.stand .free slots).join request = (outcomes, t') ∧
      (outcomes.isSome = true → Agree s' t')

/-- An orchestrator on a platform and a run under schedules have come to the same: one
`Orchestrator`, and scenes that agree. -/
structure Meets {ε : Type} (p : Progress ε) (r : Run) : Prop where
  orchestrator : r.orchestrator = p.orchestrator
  scene : Agree p.scene r.scene

namespace Meets

variable {ε : Type} {p : Progress ε} {r : Run}

theorem stand (h : Meets p r) (slots : List Slot) :
    Meets p (r.updateScene fun t => t.stand .free slots) :=
  ⟨h.orchestrator, h.scene.origin, h.scene.clock, h.scene.controls, h.scene.started,
    h.scene.recorder⟩

theorem isCancelled (h : Meets p r) : r.isCancelled = p.isCancelled := by
  rw [Progress.isCancelled, h.orchestrator, h.scene.controls, Progress.isCancelled]

theorem call (h : Meets p r) (c : Command) : c.call r = c.call p := by
  cases c <;> simp only [Command.call, h.orchestrator]

theorem requestOf (h : Meets p r) (c : Call) : r.requestOf c = p.requestOf c := by
  rw [Progress.requestOf, h.orchestrator, Progress.requestOf]

theorem cleanupRequest (h : Meets p r) :
    r.orchestrator.cleanupRequest r.scene.started =
      p.orchestrator.cleanupRequest p.scene.started := by
  rw [h.orchestrator, h.scene.started]

theorem sceneOf (h : Meets p r) (phase : Phase) : Agree (p.sceneOf phase) (r.sceneOf phase) := by
  unfold Progress.sceneOf
  split
  · exact ⟨h.scene.origin, h.scene.clock, h.scene.controls, rfl, h.scene.recorder⟩
  · exact h.scene

theorem begun (h : Meets p r) (phase : Phase) : Meets (p.begun phase) (r.begun phase) := by
  refine ⟨?_, h.scene⟩
  rw [Progress.begun, Progress.begun, h.orchestrator, h.isCancelled]

theorem settle (h : Meets p r) (c : Command) (settlement : Option Settlement) :
    Meets (c.settle settlement p) (c.settle settlement r) := by
  cases c with
  | collect =>
    refine ⟨?_, h.scene.origin, h.scene.clock, h.scene.controls, h.scene.started, ?_⟩
    · simp only [Command.settle, Progress.mergeRaw, h.orchestrator, h.scene.recorder]
    · simp only [Command.settle, Progress.mergeRaw, h.scene.recorder]
  | construct =>
    refine ⟨?_, h.scene.origin, h.scene.clock, h.scene.controls, h.scene.started, rfl⟩
    simp only [Command.settle, Progress.mergeFinal, Progress.finalOf, h.orchestrator,
      h.scene.recorder]
  | _ => exact h

theorem settledWith (h : Meets p r) (c : Call) (outcomes : List CallOutcome) {s : Scene ε}
    {t : Stage} (agree : Agree s t) :
    Meets (p.settledWith c outcomes s) (r.settledWith c outcomes t) := by
  refine ⟨?_, agree.origin, agree.clock, agree.controls, agree.started, agree.recorder⟩
  simp only [Progress.settledWith, h.orchestrator, agree.controls]

theorem joined (h : Meets p r) (c : Command) (outcomes : List CallOutcome) {s : Scene ε}
    {t : Stage} (agree : Agree s t) :
    Meets
      (c.settle (some (Settlement.ofCalls c.phase p.orchestrator.observers outcomes))
        (p.settledWith (c.call p) outcomes s))
      (c.settle (some (Settlement.ofCalls c.phase r.orchestrator.observers outcomes))
        (r.settledWith (c.call r) outcomes t)) := by
  rw [h.call, h.orchestrator]
  exact (h.settledWith _ outcomes agree).settle c _

theorem cleanedWith (h : Meets p r) (outcomes : List CallOutcome) {s : Scene ε} {t : Stage}
    (agree : Agree s t) : Meets (p.cleanedWith outcomes s) (r.cleanedWith outcomes t) := by
  refine ⟨?_, agree.origin, agree.clock, agree.controls, agree.started, ?_⟩
  · simp only [Progress.cleanedWith, Progress.cleanupSettlement, h.orchestrator, h.scene.started]
  · simp only [Progress.cleanedWith, agree.recorder]

end Meets

theorem sceneOf_stand (r : Run) (phase : Phase) (slots : List Slot) :
    (r.updateScene fun t => t.stand .free slots).sceneOf phase =
      Stage.stand (r.sceneOf phase) .free slots := by
  unfold Progress.sceneOf
  split <;> rfl

theorem Stage.free_of_join {request : JoinRequest} {t t' : Stage} {outcomes : List CallOutcome}
    (joins : t.join request = (some outcomes, t')) : t'.inner.standing = .free := by
  have joined := joined_join request t
  rw [joins] at joined
  exact joined.free.2 rfl

/-- What a command does on a platform that is `Scheduled` it does under some schedule, with the same
answer, and the two still meet. -/
theorem Scheduled.exists_slots {ε : Type} {P : Platform ε} (h : Scheduled P) {c : Command}
    {p q : Progress ε} {answer : Except Halt Unit} (commanded : Commanded P.Makes c p answer q)
    {r : Run} (meets : Meets p r) :
    ∃ slots, ∃ r' : Run,
      Commanded platform.Makes c (r.updateScene fun t => t.stand .free slots) answer r' ∧
      r'.orchestrator = q.orchestrator ∧
      (answer ≠ .error .overflow → Meets q r' ∧ r'.isFree = true) := by
  have same := meets.orchestrator
  cases commanded with
  | refused working unready =>
    rw [← same] at unready ⊢
    exact ⟨[], _, .refused working unready, rfl, fun _ => ⟨meets.stand [], rfl⟩⟩
  | skipped working ready cancelled =>
    have meets' := ((meets.stand []).begun c.phase).settle c none
    rw [← (meets.stand []).isCancelled] at cancelled
    rw [← same] at ready
    exact ⟨[], _, .skipped working ready cancelled, meets'.orchestrator,
      fun _ => ⟨meets', by rw [Run.isFree, Run.world, Command.inner_settle]; rfl⟩⟩
  | unjoined scene working ready going unjoined =>
    obtain ⟨slots, t', joins, -⟩ := h.join _ _ _ _ unjoined _ (meets.sceneOf c.phase)
    -- The platform made the calls in the scene of the progress, and the run makes them in its own.
    have begun := (meets.stand slots).begun c.phase
    rw [← sceneOf_stand, ← (meets.stand slots).requestOf, ← (meets.stand slots).call] at joins
    rw [← (meets.stand slots).isCancelled] at going
    rw [← same] at ready
    exact ⟨slots, _, .unjoined t' working ready going joins, begun.orchestrator, absurd rfl⟩
  | joined outcomes scene working ready going joined =>
    obtain ⟨slots, t', joins, agree⟩ := h.join _ _ _ _ joined _ (meets.sceneOf c.phase)
    -- Both take over the same outcomes, so they settle the phase alike.
    have meets' := (meets.stand slots).joined c outcomes (agree rfl)
    have free := Stage.free_of_join joins
    rw [← sceneOf_stand, ← (meets.stand slots).requestOf, ← (meets.stand slots).call] at joins
    rw [← (meets.stand slots).isCancelled] at going
    rw [← same] at ready
    refine ⟨slots, _, .joined outcomes t' working ready going joins, meets'.orchestrator,
      fun _ => ⟨meets', ?_⟩⟩
    rw [Run.isFree, Run.world, Command.inner_settle]
    exact decide_eq_true free
  | again cleanup done =>
    rw [← same] at done
    exact ⟨[], _, .again cleanup done, same, fun _ => ⟨meets.stand [], rfl⟩⟩
  | uncleaned scene cleanup first unjoined =>
    obtain ⟨slots, t', joins, -⟩ := h.join _ _ _ _ unjoined _ meets.scene
    rw [← meets.cleanupRequest] at joins
    rw [← same] at first
    exact ⟨slots, _, .uncleaned t' cleanup first joins, same, absurd rfl⟩
  | cleaned outcomes scene cleanup first joined =>
    obtain ⟨slots, t', joins, agree⟩ := h.join _ _ _ _ joined _ meets.scene
    have meets' := (meets.stand slots).cleanedWith outcomes (agree rfl)
    have free := Stage.free_of_join joins
    rw [← meets.cleanupRequest] at joins
    rw [← same] at first
    exact ⟨slots, _, .cleaned outcomes t' cleanup first joins, meets'.orchestrator,
      fun _ => ⟨meets', decide_eq_true free⟩⟩

/-- What an orchestrator may come to on the platform `P` from `start`: it is asked for commands, and
the scene changes beside it. Nothing is certain any more after calls that were never joined. -/
inductive Reached {ε : Type} (P : Platform ε) (start : Progress ε) : Progress ε → Prop
  | start : Reached P start start
  | beside {p : Progress ε} {scene : Scene ε} (reached : Reached P start p)
    (beside : p.scene.Beside scene) : Reached P start { p with scene }
  | command {p q : Progress ε} {answer : Except Halt Unit} (c : Command)
    (reached : Reached P start p) (performed : p.perform (c.conduct P) = (answer, q))
    (joined : answer ≠ .error .overflow) : Reached P start q

/-- Whatever an orchestrator comes to on a platform that is `Scheduled`, a run comes to the same by
some acts. -/
theorem Scheduled.exists_acts {ε : Type} {P : Platform ε} (h : Scheduled P) {start p : Progress ε}
    (reached : Reached P start p) {r : Run} (meets : Meets start r) (free : r.isFree = true) :
    ∃ acts, Meets p (r.after acts) ∧ (r.after acts).isFree = true := by
  induction reached with
  | start => exact ⟨[], meets, free⟩
  | beside _ beside ih =>
    obtain ⟨acts, meets', free'⟩ := ih
    obtain ⟨moves, agree, -, standing⟩ := meets'.scene.exists_moves beside
    refine ⟨acts ++ moves.map .beside, ?_, ?_⟩ <;> rw [Run.after_append, Run.after_beside]
    · exact ⟨meets'.orchestrator, agree⟩
    · have still : ((r.after acts).updateScene fun t => moves.foldl Stage.move t).world.standing =
          (r.after acts).world.standing := standing
      rw [Run.isFree, still]
      exact free'
  | @command p _ _ c _ performed joined ih =>
    obtain ⟨acts, meets', free'⟩ := ih
    have commanded := commanded_conduct P c p
    rw [performed] at commanded
    -- The run is asked for the same command, with a schedule that does what the platform did.
    obtain ⟨slots, r', same, -, met⟩ := h.exists_slots commanded meets'
    have asked : ((r.after acts).ask c slots).2 = r' := congrArg Prod.snd same.perform_eq
    refine ⟨acts ++ [.command c slots], ?_⟩
    rw [Run.after_concat, Run.act_command free', asked]
    exact met joined

end Schedule
end Vigil
