import Vigil.Proofs.Schedule.Simulation
import Vigil.Rehearsal.Lifecycle

/-!
# A rehearsal goes on beside the orchestrator

Whatever threads, errands and forced cleanups do in a rehearsal, to the orchestrator time passes,
switches are thrown and intervals are recorded, and nothing else happens.
-/

namespace Vigil.Rehearsal.Stage

theorem beside_updateWorld (s : Stage) (change : World → World) :
    Scene.Beside s (s.updateWorld change) :=
  .of_eq rfl rfl rfl rfl rfl

theorem beside_withFiles (s : Stage) (files : FileTree) : Scene.Beside s (s.withFiles files) :=
  .of_eq rfl rfl rfl rfl rfl

theorem beside_emit (s : Stage) (emissions : List Metrics.Emission) :
    Scene.Beside s (s.emit emissions) :=
  .of_eq rfl rfl rfl rfl rfl

theorem beside_endWindow (s : Stage) : Scene.Beside s (s.withControls s.controls.endWindow) :=
  ⟨rfl, Nat.le_refl _, fun _ => rfl, id, rfl, [], by simp [withControls], fun _ => rfl⟩

theorem beside_record (s : Stage) (i : Interval) :
    Scene.Beside s (s.withRecorder (s.recorder.record i).2) := by
  refine ⟨rfl, Nat.le_refl _, id, id, rfl, ?_⟩
  cases going : s.recorder.closed with
  | true =>
    have refused : (s.recorder.record i).2 = s.recorder := by simp [Recorder.record, going]
    exact ⟨[], by rw [withRecorder, refused, List.append_nil], fun _ => rfl⟩
  | false => exact ⟨[i], by simp [withRecorder, Recorder.record, going],
      fun refuses => absurd refuses Bool.false_ne_true⟩

theorem beside_note (s : Stage) (t : Thread) (what : Happening) :
    Scene.Beside s (s.note t what) :=
  s.beside_updateWorld _

theorem beside_wake (s : Stage) (next : Thread → Option ThreadState) :
    Scene.Beside s (s.wake next) :=
  s.beside_updateWorld _

theorem beside_wakeIds (s : Stage) (ids : List Nat) (state : ThreadState) :
    Scene.Beside s (s.wakeIds ids state) :=
  .foldl (fun s _ => beside_wake s _) ids s

theorem beside_cancelRun (s : Stage) : Scene.Beside s s.cancelRun := by
  unfold cancelRun
  split
  · exact .refl s
  · have thrown : Scene.Beside s (s.withControls s.controls.cancelRun) :=
      ⟨rfl, Nat.le_refl _, id, fun _ => rfl, rfl, [], by simp [withControls], fun _ => rfl⟩
    exact thrown.trans (beside_wake _ _)

theorem beside_spawn (s : Stage) (request : JoinRequest) : Scene.Beside s (s.spawn request).2 :=
  .of_eq rfl rfl rfl rfl rfl

theorem beside_leaveGuard (s : Stage) (t : Thread) (ending : Ending) :
    Scene.Beside s (s.leaveGuard t ending) := by
  unfold leaveGuard
  split
  · exact .refl s
  · split
    · exact (s.beside_updateWorld _).trans (beside_wakeIds _ _ _)
    · exact (s.beside_updateWorld _).trans (beside_wakeIds _ _ _)

theorem beside_stop (s : Stage) (id : Nat) : Scene.Beside s (s.stop id) := by
  unfold stop
  split
  · exact .refl s
  · next t _ =>
    split
    · exact .refl s
    · exact .refl s
    · have noted : Scene.Beside s (if t.entered then s.note t .aborted else s) := by
        split
        · exact s.beside_note t _
        · exact .refl s
      dsimp only
      -- Whether it is noted or not, what follows goes on beside the orchestrator.
      generalize (if t.entered then s.note t .aborted else s) = s' at noted ⊢
      refine noted.trans ?_
      split
      · split
        · exact beside_updateWorld _ _
        · exact (beside_updateWorld _ _).trans
            ((beside_updateWorld _ _).trans (beside_wakeIds _ _ _))
      · exact beside_updateWorld _ _

theorem beside_stopAll (s : Stage) (ids : List Nat) : Scene.Beside s (s.stopAll ids) :=
  .foldl beside_stop ids s

/-! ## Cleanups that are forced from within -/

theorem beside_settleForced (s : Stage) (f : ForcedCleanup) :
    Scene.Beside s (s.settleForced f).2 :=
  s.beside_emit _

theorem beside_force (s : Stage) (waiter : Ticket) : Scene.Beside s (s.force waiter).2 := by
  have spawned := s.beside_spawn (s.inner.cleanupRequest s.started)
  -- How the join starts is of no matter. It stays hidden, so that no deadline is ever computed.
  obtain ⟨forced, unfolded⟩ : ∃ forced, force = forced := ⟨_, rfl⟩
  obtain ⟨start, same⟩ : ∃ start, Join.start? = start := ⟨_, rfl⟩
  rw [unfolded]
  delta force at unfolded
  rw [same] at unfolded
  subst unfolded
  dsimp only
  split
  · exact spawned
  · split
    · exact spawned
    · split
      · exact spawned.trans (beside_settleForced _ _)
      · exact spawned.trans ((beside_updateWorld _ _).trans (beside_stopAll _ _))

theorem beside_endErrand (s : Stage) (id : Nat) (answer : DeedAnswer) :
    Scene.Beside s (s.endErrand id answer) :=
  s.beside_updateWorld _

theorem beside_resumeWaiter (s : Stage) (f : ForcedCleanup) (records : List Record) :
    Scene.Beside s (s.resumeWaiter f records) := by
  unfold resumeWaiter
  split
  · split
    · exact (beside_note _ _ _).trans (beside_wake _ _)
    · exact .refl s
  · split
    · exact beside_endErrand _ _ _
    · exact beside_endErrand _ _ _

theorem beside_pollForced (s : Stage) (f : ForcedCleanup) : Scene.Beside s (s.pollForced f) := by
  unfold pollForced
  split
  · exact .refl s
  · next j stops _ =>
    have stopped := s.beside_stopAll stops
    dsimp only
    split
    · exact stopped.trans ((beside_settleForced _ _).trans
        ((beside_updateWorld _ _).trans (beside_resumeWaiter _ _ _)))
    · exact stopped.trans (beside_updateWorld _ _)

theorem beside_pollAllForced (s : Stage) : Scene.Beside s s.pollAllForced :=
  .foldl beside_pollForced _ s

/-! ## Threads and errands -/

theorem beside_perform (s : Stage) (t : Thread) (p : Participant) (a : Action) :
    Scene.Beside s (s.perform t p a).2.1 := by
  cases a with
  | sleep millis =>
    simp only [perform]
    split <;> exact .refl s
  | awaitCancel =>
    simp only [perform]
    split
    · exact .refl s
    · split <;> exact .refl s
  | cancelRun => exact s.beside_cancelRun
  | escalate =>
    have forced := s.beside_force (.thread t.id)
    simp only [perform]
    -- Of a forced cleanup no more is needed than `forced`.
    generalize s.force (.thread t.id) = forcing at forced ⊢
    obtain ⟨outcome, s'⟩ := forcing
    split
    · exact s.beside_endWindow.trans (beside_note _ _ _)
    · exact s.beside_cancelRun.trans (beside_note _ _ _)
    · cases outcome with
      | finished => exact forced.trans (beside_note _ _ _)
      | _ => exact forced
  | record i =>
    simp only [perform]
    split
    · exact (s.beside_record i).trans (beside_note _ _ _)
    · exact s.beside_note t _
  | write file value =>
    simp only [perform]
    split
    · exact .refl s
    · split
      · exact s.beside_withFiles _
      · exact s.beside_withFiles _
  | _ => exact .refl s

theorem beside_finishBody (s : Stage) (t : Thread) (ending : Ending) :
    Scene.Beside s (s.finishBody t ending).1 := by
  have ended (t : Thread) (what : Happening) :
      Scene.Beside s ((s.note t what).leaveGuard t ending) :=
    (s.beside_note t what).trans (beside_leaveGuard _ _ _)
  cases ending with
  | returned =>
    simp only [finishBody]
    split
    · exact (ended _ _).trans (beside_note _ _ _)
    · exact beside_note _ _ _
  | failed =>
    simp only [finishBody]
    split
    · exact (ended _ _).trans (beside_note _ _ _)
    · exact beside_note _ _ _
  | panicked =>
    simp only [finishBody]
    split
    · exact ended _ _
    · exact beside_note _ _ _

theorem beside_runActions (s : Stage) (t : Thread) (p : Participant) (actions : List Action) :
    Scene.Beside s (s.runActions t p actions).1 := by
  induction actions generalizing s t with
  | nil => exact s.beside_finishBody t _
  | cons a actions ih =>
    have performed := s.beside_perform t p a
    unfold runActions
    split
    · next acts => rw [acts] at performed; exact performed.trans (ih _ _)
    · next acts => rw [acts] at performed; exact performed
    · next acts => rw [acts] at performed; exact performed.trans (beside_finishBody _ _ _)

theorem beside_beginBody (s : Stage) (t : Thread) (p : Participant) (script : Script) :
    Scene.Beside s (s.beginBody t p script).1 :=
  (s.beside_updateWorld _).trans ((beside_note _ _ _).trans (beside_runActions _ _ _ _))

theorem beside_pass (s : Stage) (t : Thread) : Scene.Beside s (s.pass t).1 := s.beside_note t _

theorem beside_runScripted (s : Stage) (t : Thread) (p : Participant) (script : Script) :
    Scene.Beside s (s.runScripted t p script).1 := by
  unfold runScripted
  split
  · split
    · have entered := (s.beside_note t .called).trans (beside_updateWorld _ fun w =>
        w.changeParticipant t.participant fun q => { q with guard := (p.guard.enter t.id).2 })
      dsimp only
      split
      · exact entered.trans (beside_beginBody _ _ _ _)
      · exact entered
      · exact entered.trans (beside_pass _ _)
    · exact s.beside_beginBody t p script
  · exact s.beside_beginBody t p script
  · exact s.beside_pass t
  · exact s.beside_runActions t p _
  · exact .refl s

theorem beside_runThread (s : Stage) (t : Thread) : Scene.Beside s (s.runThread t) := by
  unfold runThread
  split
  · exact .refl s
  · next p _ =>
    split
    · exact (s.beside_runScripted t p _).trans (beside_updateWorld _ _)
    · exact (s.beside_withFiles _).trans (beside_updateWorld _ _)

theorem beside_runErrand (s : Stage) (e : Errand) : Scene.Beside s (s.runErrand e) := by
  have forced := s.beside_force (.errand e.id)
  unfold runErrand
  generalize s.force (.errand e.id) = forcing at forced ⊢
  obtain ⟨outcome, s'⟩ := forcing
  dsimp only at forced ⊢
  split
  · exact s.beside_cancelRun.trans (beside_endErrand _ _ _)
  · cases outcome with
    | finished => exact forced.trans (beside_endErrand _ _ _)
    | _ => exact forced
  · exact (s.beside_record _).trans (beside_endErrand _ _ _)
  · split
    · exact s.beside_endWindow.trans (beside_endErrand _ _ _)
    · exact s.beside_cancelRun.trans (beside_endErrand _ _ _)
    · cases outcome with
      | finished => exact forced.trans (beside_endErrand _ _ _)
      | _ => exact forced

theorem beside_runTicket (s : Stage) (ticket : Ticket) : Scene.Beside s (s.runTicket ticket) := by
  unfold runTicket
  split
  · split
    · exact s.beside_runThread _
    · exact .refl s
  · split
    · exact s.beside_runErrand _
    · exact .refl s

/-! ## Playing -/

theorem beside_settleWithin (n : Nat) (s : Stage) : Scene.Beside s (s.settleWithin n) := by
  induction n generalizing s with
  | zero => exact .refl s
  | succ n ih =>
    unfold settleWithin
    split
    · exact (s.beside_updateWorld _).trans ((beside_runTicket _ _).trans (ih _))
    · split
      · exact .refl s
      · dsimp only
        split
        · exact s.beside_pollAllForced
        · exact s.beside_pollAllForced.trans (ih _)

theorem beside_settle (s : Stage) : Scene.Beside s s.settle := s.beside_settleWithin _

theorem beside_startErrands (s : Stage) : Scene.Beside s s.startErrands := s.beside_updateWorld _

theorem beside_jump (s : Stage) (own : Option Nat) : ∀ s' ∈ s.jump? own, Scene.Beside s s' := by
  intro s' h
  unfold jump? at h
  split at h
  · cases h
  · next next _ =>
    cases h
    have passed : Scene.Beside s { s with clock := max s.clock next } :=
      ⟨rfl, Nat.le_max_left _ _, id, id, rfl, [], by simp, fun _ => rfl⟩
    exact passed.trans ((beside_wake _ _).trans (beside_startErrands _))

theorem beside_playUntil (own : Option Nat) (holds : Stage → Bool) (n : Nat) (s : Stage) :
    Scene.Beside s (playUntil own holds n s) := by
  induction n generalizing s with
  | zero => exact .refl s
  | succ n ih =>
    unfold playUntil
    dsimp only
    split
    · exact s.beside_settle
    · split
      · next jumps => exact s.beside_settle.trans ((beside_jump _ own _ jumps).trans (ih _))
      · exact s.beside_settle

theorem beside_sleepUntil (time : Nat) (s : Stage) : Scene.Beside s (s.sleepUntil time) :=
  beside_playUntil _ _ _ s

theorem beside_finishErrands (s : Stage) : Scene.Beside s s.finishErrands := by
  unfold finishErrands
  split
  · exact .refl s
  · exact beside_playUntil _ _ _ s

theorem beside_addErrands (s : Stage) (deeds : List (Nat × Deed)) :
    Scene.Beside s (s.addErrands deeds) :=
  (s.beside_updateWorld _).trans (beside_startErrands _)

theorem beside_awaitWindow (request : WindowRequest) (s : Stage) :
    Scene.Beside s (s.awaitWindow request) := by
  cases request with
  | work =>
    unfold awaitWindow doWork
    dsimp only
    split
    · exact (s.beside_record _).trans (beside_playUntil _ _ _ _)
    · exact beside_playUntil _ _ _ s
  | span length => exact beside_playUntil _ _ _ s

end Vigil.Rehearsal.Stage
