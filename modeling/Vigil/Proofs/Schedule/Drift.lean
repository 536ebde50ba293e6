import Vigil.Proofs.Schedule.Basic

/-!
# What goes on beside a run

Whatever goes on beside a run, the calls that were made stay the same, a task that is over stays as
it is, and the recorder only takes further intervals.

The module introduces:

* `Task.Later`, what a task may become, and `Task.Moved`, what it may become without the run;
* `World.ledger`, the calls that were made and their outcomes, and `World.Evolves`, what a world may
  become without either;
* `Drift`, what a scene may become between two steps of the orchestrator.
-/

namespace Vigil.Schedule

namespace Task

/-- The task `u` is what may have become of `t`, whoever asked it to stop meanwhile. -/
structure Later (t u : Task) : Prop where
  /-- A task that is over stays as it is. -/
  done : t.isOver = true → u = t
  /-- A request to stop is never taken back. -/
  aborted : t.aborted = true → u.aborted = true

/-- The task `u` is what may have become of `t` without a request to stop, as when the orchestrator
waits. -/
structure Moved (t u : Task) : Prop extends Later t u where
  /-- Only the run asks tasks to stop. -/
  aborted_eq : u.aborted = t.aborted
  /-- Only a task that was asked to stop is stopped. -/
  stopped : t.aborted = false → u.status = .stopped → t.status = .stopped

namespace Later

theorem refl (t : Task) : Later t t := ⟨fun _ => rfl, id⟩

theorem trans {t u v : Task} (first : Later t u) (second : Later u v) : Later t v where
  done h := by
    have same : u = t := first.done h
    subst same
    exact second.done h
  aborted h := second.aborted (first.aborted h)

theorem isOver {t u : Task} (later : Later t u) (h : t.isOver = true) : u.isOver = true := by
  rw [later.done h, h]

end Later

theorem moved_refl (t : Task) : Moved t t := ⟨.refl t, rfl, fun _ h => h⟩

theorem moved_of_live {t : Task} (status : Status) (live : t.isOver = false)
    (going : status ≠ .stopped) : Moved t { t with status } :=
  ⟨⟨by simp [live], id⟩, rfl, fun _ h => absurd h going⟩

theorem moved_enter (t : Task) : Moved t t.enter := by
  unfold enter
  split
  · next fresh => exact moved_of_live _ (by simp [isOver, fresh]) nofun
  · exact moved_refl t

theorem moved_finish (e : Ending) (t : Task) : Moved t (t.finish e) := by
  unfold finish
  split
  · next running => exact moved_of_live _ (by simp [isOver, running]) nofun
  · exact moved_refl t

theorem moved_stop (t : Task) : Moved t t.stop := by
  unfold stop
  split
  · exact moved_refl t
  · next live =>
    split
    · next aborted => exact ⟨⟨fun h => absurd h live, id⟩, rfl, by simp [aborted]⟩
    · exact moved_refl t

theorem later_abort (t : Task) : Later t t.abort := by
  unfold abort
  split
  · exact .refl t
  · next live => exact ⟨fun h => absurd h live, fun _ => rfl⟩

end Task

namespace World

/-- Changing the task of one `observer` in one `round` leaves all other tasks as they are. -/
theorem task?_change (w : World) (round observer : Nat) (f : Task → Task) (n i : Nat) :
    (w.change round observer f).task? n i =
      (w.task? n i).map fun t => if round = n ∧ observer = i then f t else t := by
  unfold task? change
  rw [List.getElem?_modify]
  cases hr : w.rounds[n]? with
  | none => simp
  | some r =>
    by_cases hn : round = n
    · by_cases hi : observer = i <;> simp [hn, hi, Round.change]
    · simp [hn]

/-- What was asked for in each round, with the outcomes that the run took over: all of a `World`
that no move changes. -/
def ledger (w : World) : List (JoinRequest × Option (List CallOutcome)) :=
  w.rounds.map fun r => (r.request, r.outcomes)

@[simp]
theorem length_ledger (w : World) : w.ledger.length = w.rounds.length := List.length_map _

theorem ledger_change (w : World) (round observer : Nat) (f : Task → Task) :
    (w.change round observer f).ledger = w.ledger := by
  refine List.ext_getElem? fun n => ?_
  simp only [ledger, change, List.getElem?_map, List.getElem?_modify]
  cases w.rounds[n]? with
  | none => rfl
  | some r => by_cases hn : round = n <;> simp [hn, Round.change]

/-- The world `v` is what has become of `w`: the same `ledger`, and every task has become what `R`
says it may. -/
structure Evolves (R : Task → Task → Prop) (w v : World) : Prop where
  /-- The calls and the outcomes that were taken over are the same. -/
  ledger : v.ledger = w.ledger
  /-- Every task has become what it may, and there are no others. -/
  task : ∀ n i, Option.Rel R (w.task? n i) (v.task? n i)

namespace Evolves

variable {R : Task → Task → Prop} {w v u : World}

theorem of_rounds_eq (refl : ∀ t, R t t) (same : v.rounds = w.rounds) : Evolves R w v where
  ledger := by rw [World.ledger, same, World.ledger]
  task n i := by
    rw [show v.task? n i = w.task? n i by simp only [task?, same]]
    cases w.task? n i with
    | none => exact .none
    | some t => exact .some (refl t)

theorem later (h : Evolves R w v) {n i : Nat} {t : Task} (ht : w.task? n i = some t) :
    ∃ u, v.task? n i = some u ∧ R t u := by
  have rel := h.task n i
  rw [ht] at rel
  cases hu : v.task? n i with
  | none => simp [hu] at rel
  | some u => exact ⟨u, rfl, by simpa [hu] using rel⟩

theorem earlier (h : Evolves R w v) {n i : Nat} {u : Task} (hu : v.task? n i = some u) :
    ∃ t, w.task? n i = some t ∧ R t u := by
  have rel := h.task n i
  rw [hu] at rel
  cases ht : w.task? n i with
  | none => simp [ht] at rel
  | some t => exact ⟨t, rfl, by simpa [ht] using rel⟩

theorem trans (htrans : ∀ {a b c}, R a b → R b c → R a c) (first : Evolves R w v)
    (second : Evolves R v u) : Evolves R w u where
  ledger := second.ledger.trans first.ledger
  task n i := by
    -- A task that was not there at first is not there in between, and so not at the end.
    cases ht : w.task? n i with
    | none =>
      have none' := first.task n i
      rw [ht] at none'
      cases hv : v.task? n i with
      | some t' => simp [hv] at none'
      | none => simpa [hv] using second.task n i
    | some t =>
      obtain ⟨t', ht', htt'⟩ := first.later ht
      obtain ⟨t'', ht'', ht't''⟩ := second.later ht'
      rw [ht'']
      exact .some (htrans htt' ht't'')

theorem mono {S : Task → Task → Prop} (imp : ∀ t u, R t u → S t u) (h : Evolves R w v) :
    Evolves S w v where
  ledger := h.ledger
  task n i := by
    have rel := h.task n i
    revert rel
    cases w.task? n i <;> cases v.task? n i <;>
      simp only [Option.rel_some_some, Option.rel_none_none, Option.not_rel_none_some,
        Option.not_rel_some_none, imp_self]
    exact imp _ _

theorem length_eq (h : Evolves R w v) : v.rounds.length = w.rounds.length := by
  simpa using congrArg List.length h.ledger

end Evolves

theorem evolves_change {R : Task → Task → Prop} (refl : ∀ t, R t t) {f : Task → Task}
    (step : ∀ t, R t (f t)) (w : World) (round observer : Nat) :
    Evolves R w (w.change round observer f) where
  ledger := ledger_change w round observer f
  task n i := by
    rw [task?_change]
    cases w.task? n i with
    | none => exact .none
    | some t =>
      refine .some ?_
      split
      · exact step t
      · exact refl t

/-- The tasks of `w` are all in `v`, and each is what it may have become; there may be new ones. -/
def Keeps (w v : World) : Prop :=
  ∀ n i t, w.task? n i = some t → ∃ u, v.task? n i = some u ∧ t.Later u

theorem Evolves.keeps {w v : World} (h : Evolves Task.Later w v) : Keeps w v :=
  fun _ _ _ ht => h.later ht

theorem Keeps.isOver {w v : World} (h : Keeps w v) {n i : Nat} (done : w.isOver n i = true) :
    v.isOver n i = true := by
  unfold World.isOver at done ⊢
  cases ht : w.task? n i with
  | none => simp [ht] at done
  | some t =>
    obtain ⟨u, hu, later⟩ := h n i t ht
    rw [hu]
    exact later.isOver (by simpa [ht] using done)

end World

/-- The scene `s'` is what has become of `s` while the orchestrator waits: only the clock, the
switches, the recorder's queue and the tasks, as `R` says, are other than before. -/
structure Drift (R : Task → Task → Prop) (s s' : Stage) : Prop where
  world : World.Evolves R s.inner s'.inner
  origin : s'.origin = s.origin
  started : s'.started = s.started
  /-- Only the orchestrator emits metrics. -/
  emitted : s'.emitted = s.emitted
  /-- Only the orchestrator closes the recorder. -/
  closed : s'.recorder.closed = s.recorder.closed
  /-- Intervals are added to those that wait in the recorder, and all of them are among the accepted
  ones. -/
  recorded : ∃ new, s'.recorder.queue = s.recorder.queue ++ new ∧
    s'.inner.accepted = s.inner.accepted ++ new

namespace Drift

variable {R : Task → Task → Prop} {s s' s'' : Stage}

theorem trans (htrans : ∀ {a b c}, R a b → R b c → R a c) (first : Drift R s s')
    (second : Drift R s' s'') : Drift R s s'' where
  world := first.world.trans htrans second.world
  origin := second.origin.trans first.origin
  started := second.started.trans first.started
  emitted := second.emitted.trans first.emitted
  closed := second.closed.trans first.closed
  recorded := by
    obtain ⟨new, hqueue, haccepted⟩ := first.recorded
    obtain ⟨new', hqueue', haccepted'⟩ := second.recorded
    refine ⟨new ++ new', ?_, ?_⟩
    · rw [hqueue', hqueue, List.append_assoc]
    · rw [haccepted', haccepted, List.append_assoc]

theorem mono {S : Task → Task → Prop} (imp : ∀ t u, R t u → S t u) (h : Drift R s s') :
    Drift S s s' :=
  { h with world := h.world.mono imp }

/-- A change of the world alone is a drift if its rounds evolve and nothing more is accepted. -/
theorem of_world {f : World → World} (world : World.Evolves R s.inner (f s.inner))
    (accepted : (f s.inner).accepted = s.inner.accepted) : Drift R s (s.updateWorld f) where
  world := world
  origin := rfl
  started := rfl
  emitted := rfl
  closed := rfl
  recorded := ⟨[], by simp [Stage.updateWorld], by simp [Stage.updateWorld, accepted]⟩

theorem of_eq (refl : ∀ t, R t t) (inner : s'.inner = s.inner) (origin : s'.origin = s.origin)
    (started : s'.started = s.started) (emitted : s'.emitted = s.emitted)
    (recorder : s'.recorder = s.recorder) : Drift R s s' where
  world := .of_rounds_eq refl (by rw [inner])
  origin := origin
  started := started
  emitted := emitted
  closed := by rw [recorder]
  recorded := ⟨[], by simp [recorder], by simp [inner]⟩

theorem stand (refl : ∀ t, R t t) (s : Stage) (standing : Standing) (slots : List Slot) :
    Drift R s (s.stand standing slots) :=
  of_world (.of_rounds_eq refl rfl) rfl

end Drift

/-- An interval that is handed over changes nothing but the recorder and what it has let in. -/
theorem Stage.exists_move_record (s : Stage) (i : Interval) :
    ∃ recorder accepted, s.move (.record i) =
      { s with recorder, inner := { s.inner with accepted } } := by
  cases closed : s.recorder.closed with
  | true => exact ⟨s.recorder, s.inner.accepted, by simp [move, Recorder.record, closed]⟩
  | false =>
    refine ⟨{ s.recorder with queue := s.recorder.queue ++ [i] }, s.inner.accepted ++ [i], ?_⟩
    simp [move, Recorder.record, closed]

/-- Whatever goes on beside a run is a drift by which no task is asked to stop. -/
theorem drift_move (s : Stage) (m : Move) : Drift Task.Moved s (s.move m) := by
  cases m with
  | enter n i => exact .of_world (World.evolves_change Task.moved_refl Task.moved_enter _ n i) rfl
  | finish n i e =>
    exact .of_world (World.evolves_change Task.moved_refl (Task.moved_finish e) _ n i) rfl
  | stop n i => exact .of_world (World.evolves_change Task.moved_refl Task.moved_stop _ n i) rfl
  | elapse millis => exact .of_eq Task.moved_refl rfl rfl rfl rfl rfl
  | cancelRun => exact .of_eq Task.moved_refl rfl rfl rfl rfl rfl
  | endWindow => exact .of_eq Task.moved_refl rfl rfl rfl rfl rfl
  | record i =>
    -- A closed recorder refuses the interval, and then nothing changes.
    cases closed : s.recorder.closed with
    | true =>
      have same : s.move (.record i) = s := by simp [Stage.move, Recorder.record, closed]
      rw [same]
      exact .of_eq Task.moved_refl rfl rfl rfl rfl rfl
    | false =>
      have added : s.move (.record i) =
          { s with
            recorder := { s.recorder with queue := s.recorder.queue ++ [i] }
            inner := { s.inner with accepted := s.inner.accepted ++ [i] } } := by
        simp [Stage.move, Recorder.record, closed]
      rw [added]
      exact ⟨.of_rounds_eq Task.moved_refl rfl, rfl, rfl, rfl, rfl, [i], rfl, rfl⟩
  | write files => exact .of_eq Task.moved_refl rfl rfl rfl rfl rfl
  | adjust present =>
    exact .of_world (f := fun w => { w with present }) (.of_rounds_eq Task.moved_refl rfl) rfl

theorem drift_moves (moves : List Move) (t : Stage) :
    Drift Task.Later t (moves.foldl Stage.move t) := by
  induction moves generalizing t with
  | nil => exact .of_eq Task.Later.refl rfl rfl rfl rfl rfl
  | cons m moves ih =>
    have first := (drift_move t m).mono fun _ _ h => h.toLater
    exact first.trans Task.Later.trans (ih (t.move m))

/-- What goes on while a run waits for its own next step is a list of moves beside it, whatever the
schedule holds after them. -/
theorem Stage.exists_idle (slots : List Slot) (s : Stage) :
    ∃ (moves : List Move) (rest : List Slot),
      Stage.idle slots s = (moves.foldl Stage.move s).stand .free rest := by
  induction slots generalizing s with
  | nil => exact ⟨[], [], rfl⟩
  | cons slot slots ih =>
    cases slot with
    | run => exact ⟨[], slots, rfl⟩
    | beside m =>
      obtain ⟨moves, rest, same⟩ := ih (s.move m)
      exact ⟨m :: moves, rest, same⟩

theorem drift_abort (s : Stage) (round : Nat) (observer : Option Nat) :
    Drift Task.Later s (s.abort round observer) := by
  cases observer with
  | none => exact .of_eq Task.Later.refl rfl rfl rfl rfl rfl
  | some i => exact .of_world (World.evolves_change Task.Later.refl Task.later_abort _ round i) rfl

end Vigil.Schedule
