import Vigil.Proofs.Punctual.Course
import Vigil.Proofs.Schedule.Follow

/-!
# The return of a join in virtual time

A join in virtual time can always get on: at every instant what is due can happen, and then the join
has something to do or time may pass. It gets on only so many times, and the deadline comes nearer.

The module introduces:

* `Underway`, the invariant of a join in virtual time from before its first turn;
* `Timing.HasRoom`, when there is room for the deadlines that a join may need;
* `Timing.MayReturn`, what a join in virtual time may return and when;
* `MeetsDeadline`, all that a join in virtual time comes to.
-/

namespace Vigil.Schedule

variable {timing : Timing} {request : JoinRequest} {round start : Nat}

/-- A join in virtual time of a phase that began at the instant `start`, before its first turn or on
course after it. -/
structure Underway (timing : Timing) (request : JoinRequest) (round start : Nat)
    (j : Option Join) (t : Stage) : Prop where
  onTime : OnTime timing request round t
  /-- No time has passed before the first turn. -/
  fresh : j = none → t.clock = start ∧ Kept request.targets.length round 0 t.inner
  course : ∀ i ∈ j, OnCourse timing request round start i t

/-- On a host whose clock read `origin` when the run began there is room for the deadlines of a
phase that begins at the instant `start` of the run. -/
structure Timing.HasRoom (timing : Timing) (request : JoinRequest) (origin start : Nat) :
    Prop where
  timeout : Vigil.HasRoom origin start request.limits.timeout
  grace : ∀ c ∈ timing.early request start,
    Vigil.HasRoom origin (max c start) request.limits.grace

namespace Underway

variable {j : Option Join} {t : Stage}

theorem le_finish (h : Underway timing request round start j t) :
    t.clock ≤ timing.finish request start := by
  match j with
  | none =>
    rw [(h.fresh rfl).1]
    exact Timing.start_le_finish
  | some i => exact (h.course i rfl).le_finish

theorem move (h : Underway timing request round start j t) {m : Move}
    (allows : timing.Allows request round j t m) :
    Underway timing request round start j (t.move m) where
  onTime := h.onTime.move allows
  fresh none := by
    obtain ⟨began, kept⟩ := h.fresh none
    refine ⟨?_, kept.moved (drift_move t m).world⟩
    rcases allows.clock with same | passes
    · rw [same]
      exact began
    · -- Time only passes while the join waits.
      obtain ⟨i, some, -⟩ := passes.waits
      rw [none] at some
      cases some
  course i hi := by
    obtain rfl := Option.mem_def.1 hi
    exact (h.course i rfl).move allows

theorem turn (h : Underway timing request round start j t) (untied : timing.Untied request start)
    {j' : Join} {stop : Option Nat} (turned : t.turn? request round j = some (j', stop)) :
    Underway timing request round start (some j') (t.abort round stop) where
  onTime := h.onTime.abort stop
  fresh := nofun
  course i hi := by
    obtain rfl := Option.some.inj hi
    match j with
    | none =>
      obtain ⟨rfl, kept⟩ := h.fresh rfl
      exact .first h.onTime untied kept turned
    | some i => exact (h.course i rfl).turn h.onTime untied turned

/-- A join in virtual time returns `timing.outcomes` at `timing.finish`, and it does not last
longer. -/
theorem await (h : Underway timing request round start j t)
    (untied : timing.Untied request start) {slots : List Slot}
    (punctual : timing.Punctual request round slots j t) :
    (Stage.await request round slots j t).2.clock ≤ timing.finish request start ∧
      ∀ outcomes, (Stage.await request round slots j t).1 = some outcomes →
        outcomes = timing.outcomes request start ∧
          (Stage.await request round slots j t).2.clock = timing.finish request start := by
  have none_returned (t : Stage) (outcomes : List CallOutcome)
      (returned : none = some outcomes) :
      outcomes = timing.outcomes request start ∧ t.clock = timing.finish request start :=
    absurd returned.symm (Option.some_ne_none _)
  induction slots generalizing j t with
  | nil => exact ⟨h.le_finish, none_returned t⟩
  | cons slot slots ih =>
    cases slot with
    | beside m => exact ih (h.move punctual.1) punctual.2
    | run =>
      unfold Timing.Punctual at punctual
      unfold Stage.await
      split
      · next outcomes returned =>
        refine ⟨h.le_finish, fun outcomes' same => ?_⟩
        obtain rfl := Option.some.inj same
        -- The join is done: it has settled all calls, at the instant when the last one was.
        obtain ⟨i, rfl, returned⟩ := Option.bind_eq_some_iff.1 returned
        exact (h.course i rfl).returns returned
      · next going =>
        rw [going] at punctual
        split
        · exact ⟨h.le_finish, none_returned t⟩
        · next j' stop turned =>
          rw [turned] at punctual
          exact ih (h.turn untied turned) punctual

/-- With room for its deadlines a join in virtual time does not panic: each turn has something to go
on with. -/
theorem exists_turn (h : Underway timing request round start j t)
    (untied : timing.Untied request start) (room : timing.HasRoom request t.origin start) :
    ∃ j' stop, t.turn? request round j = some (j', stop) := by
  cases turned : t.turn? request round j with
  | some r => exact ⟨r.1, r.2, rfl⟩
  | none =>
    -- A turn cannot be taken only if a deadline is too far away, for the limit or for the grace
    -- period.
    exfalso
    match j with
    | none =>
      obtain ⟨began, -⟩ := h.fresh rfl
      rw [Stage.turn?_none_eq_none_iff, began] at turned
      rcases turned with full | ⟨cancelled, full⟩
      · exact full room.timeout
      · obtain ⟨c, heeded, le⟩ := h.onTime.heeded cancelled
        rw [began] at le
        have early : c ∈ timing.early request start :=
          Timing.mem_early.2 ⟨heeded, untied.lt_limit heeded le⟩
        apply full
        rw [← Nat.max_eq_right le]
        exact room.grace c early
    | some i =>
      have course := h.course i rfl
      obtain ⟨cancelled, unseen, before, full⟩ := Join.turn_eq_none turned
      have early := course.early h.onTime before cancelled unseen
      apply full
      rw [course.waits.limits_eq, ← Nat.max_eq_left course.begun]
      exact room.grace _ early

end Underway

/-! ## The turns of a join -/

/-- A join gets on only so many times: at its start, once for each call and once for a cancellation.
So `advances` is bounded under every schedule. -/
theorem Stage.advances_le (request : JoinRequest) (round : Nat) (slots : List Slot)
    (j : Option Join) (t : Stage) :
    advances request round slots j t ≤ j.elim (request.targets.length + 2) Join.ahead := by
  induction slots generalizing j t with
  | nil => exact Nat.zero_le _
  | cons slot slots ih =>
    cases slot with
    | beside m => exact ih j (t.move m)
    | run =>
      unfold advances
      split
      · exact Nat.zero_le _
      · split
        · exact Nat.zero_le _
        · next j' stop turned =>
          have later := ih (some j') (t.abort round stop)
          cases j with
          | none =>
            obtain ⟨i, started, same⟩ := Option.map_eq_some_iff.1 turned
            cases same
            obtain ⟨-, -, waiting, -⟩ := fields_of_start started
            -- All calls are still to be settled, and one cancellation may be seen.
            have ahead : j'.ahead ≤ request.targets.length + 1 := by
              rw [Join.ahead, waiting, List.length_range]
              split <;> simp
            rw [if_neg (Option.some_ne_none j').symm, Nat.add_comm]
            exact Nat.succ_le_succ (Nat.le_trans later ahead)
          | some i =>
            -- A turn either changes nothing or leaves less to do.
            rcases Join.ahead_turn turned with ⟨rfl, -⟩ | fewer
            · rw [if_pos rfl, Nat.zero_add]
              exact later
            · split
              · rw [Nat.zero_add]
                exact Nat.le_trans later (Nat.le_of_lt fewer)
              · rw [Nat.add_comm]
                exact Nat.le_trans (Nat.succ_le_succ later) fewer

/-- From the point of `j` and `t` on there is a schedule in virtual time by which the join
returns. -/
def CanReturn (timing : Timing) (request : JoinRequest) (round : Nat) (j : Option Join)
    (t : Stage) : Prop :=
  ∃ slots, timing.Punctual request round slots j t ∧
    (Stage.await request round slots j t).1.isSome = true

namespace CanReturn

variable {j : Option Join} {t : Stage}

theorem now {outcomes : List CallOutcome}
    (returned : j.bind (Join.outcomes? (t.inner.isOver round)) = some outcomes) :
    CanReturn timing request round j t := by
  refine ⟨[.run], ?_, ?_⟩
  · unfold Timing.Punctual
    rw [returned]
    trivial
  · unfold Stage.await
    rw [returned]
    rfl

theorem beside {m : Move} (allows : timing.Allows request round j t m)
    (later : CanReturn timing request round j (t.move m)) : CanReturn timing request round j t := by
  obtain ⟨slots, punctual, returns⟩ := later
  exact ⟨.beside m :: slots, ⟨allows, punctual⟩, returns⟩

theorem turn {j' : Join} {stop : Option Nat}
    (waits : j.bind (Join.outcomes? (t.inner.isOver round)) = none)
    (turned : t.turn? request round j = some (j', stop))
    (later : CanReturn timing request round (some j') (t.abort round stop)) :
    CanReturn timing request round j t := by
  obtain ⟨slots, punctual, returns⟩ := later
  refine ⟨.run :: slots, ?_, ?_⟩
  · unfold Timing.Punctual
    rw [waits, turned]
    exact punctual
  · rw [Stage.await_turn request round slots t waits, turned]
    exact returns

theorem besides {moves : List Move} (due : ∀ m ∈ moves, timing.Due round t.clock m)
    (later : CanReturn timing request round j (moves.foldl Stage.move t)) :
    CanReturn timing request round j t := by
  induction moves generalizing t with
  | nil => exact later
  | cons m moves ih =>
    have now := due m (List.mem_cons_self ..)
    refine .beside now.allows (ih (fun m' hm' => ?_) later)
    rw [now.clock]
    exact due m' (List.mem_cons_of_mem _ hm')

end CanReturn

theorem Task.isOver_enter_finish (u : Task) (e : Ending) : (u.enter.finish e).isOver = true := by
  cases status : u.status <;> simp [enter, finish, isOver, status]

theorem Stage.isOver_enter_finish {t : Stage} {i : Nat} {u : Task}
    (here : t.inner.task? round i = some u) (e : Ending) :
    ((t.move (.enter round i)).move (.finish round i e)).inner.isOver round i = true := by
  have task : ((t.move (.enter round i)).move (.finish round i e)).inner.task? round i =
      some (u.enter.finish e) := by
    simp [move, updateWorld, World.task?_change, here]
  rw [World.isOver, task]
  exact u.isOver_enter_finish e

theorem exists_ends (timing : Timing) {calls : List Nat} {t : Stage}
    (present : ∀ i ∈ calls, ∃ u, t.inner.task? round i = some u) :
    ∃ moves : List Move, (∀ m ∈ moves, timing.Due round t.clock m) ∧
      ∀ i ∈ calls, ∀ e, timing.ends i = some (t.clock, e) →
        (moves.foldl Stage.move t).inner.isOver round i = true := by
  induction calls generalizing t with
  | nil => exact ⟨[], nofun, nofun⟩
  | cons i calls ih =>
    obtain ⟨u, here⟩ := present i (List.mem_cons_self ..)
    have others : ∀ k ∈ calls, ∃ u, t.inner.task? round k = some u :=
      fun k hk => present k (List.mem_cons_of_mem _ hk)
    by_cases due : ∃ e, timing.ends i = some (t.clock, e)
    · -- This call ends first, and then those of the others that are due.
      obtain ⟨e, ends⟩ := due
      let t' := (t.move (.enter round i)).move (.finish round i e)
      have keeps : World.Keeps t.inner t'.inner :=
        (drift_moves [.enter round i, .finish round i e] t).world.keeps
      obtain ⟨moves, dues, done⟩ := ih (t := t') fun k hk => by
        obtain ⟨v, hv⟩ := others k hk
        obtain ⟨w, hw, -⟩ := keeps round k v hv
        exact ⟨w, hw⟩
      refine ⟨.enter round i :: .finish round i e :: moves, ?_, fun k hk e' ends' => ?_⟩
      · exact List.forall_mem_cons.2 ⟨trivial, List.forall_mem_cons.2 ⟨fun _ => ends, dues⟩⟩
      · rcases List.mem_cons.1 hk with rfl | hk
        · exact (drift_moves moves t').world.keeps.isOver (Stage.isOver_enter_finish here e)
        · exact done k hk e' ends'
    · obtain ⟨moves, dues, done⟩ := ih others
      refine ⟨moves, dues, fun k hk e ends => ?_⟩
      rcases List.mem_cons.1 hk with rfl | hk
      · exact absurd ⟨e, ends⟩ due
      · exact done k hk e ends

theorem exists_cancels (timing : Timing) (round : Nat) (t : Stage) :
    ∃ moves : List Move, (∀ m ∈ moves, timing.Due round t.clock m) ∧
      ∀ c ∈ timing.cancel, c ≤ t.clock →
        (moves.foldl Stage.move t).controls.runCancelled = true := by
  by_cases due : ∃ c ∈ timing.cancel, c ≤ t.clock
  · exact ⟨[.cancelRun], List.forall_mem_singleton.2 due, fun _ _ _ => rfl⟩
  · exact ⟨[], nofun, fun c cancel le => absurd ⟨c, cancel, le⟩ due⟩

namespace Underway

variable {j : Option Join} {t : Stage}

theorem moves (h : Underway timing request round start j t) {moves : List Move}
    (due : ∀ m ∈ moves, timing.Due round t.clock m) :
    Underway timing request round start j (moves.foldl Stage.move t) ∧
      (moves.foldl Stage.move t).clock = t.clock := by
  induction moves generalizing t with
  | nil => exact ⟨h, rfl⟩
  | cons m moves ih =>
    have now := due m (List.mem_cons_self ..)
    obtain ⟨later, same⟩ := ih (h.move now.allows) fun m' hm' => by
      rw [now.clock]
      exact due m' (List.mem_cons_of_mem _ hm')
    exact ⟨later, same.trans now.clock⟩

/-- Once all that is due has happened, nothing beside the join keeps time from passing. -/
theorem exists_settled {i : Join} (h : Underway timing request round start (some i) t) :
    ∃ moves : List Move, (∀ m ∈ moves, timing.Due round t.clock m) ∧
      let t' := moves.foldl Stage.move t
      (∀ k < request.targets.length, t'.inner.isOver round k = false →
        ∀ p ∈ timing.ends k, t.clock < p.1) ∧
      (t'.controls.runCancelled = false → ∀ c ∈ timing.cancel, t.clock < c) := by
  have present : ∀ k ∈ List.range request.targets.length,
      ∃ u, t.inner.task? round k = some u :=
    fun k hk => (h.course i rfl).waits.kept.present k (List.mem_range.1 hk)
  obtain ⟨ends, endsDue, done⟩ := exists_ends timing present
  obtain ⟨h₁, clock₁⟩ := h.moves endsDue
  obtain ⟨cancels, cancelsDue, thrown⟩ :=
    exists_cancels timing round (ends.foldl Stage.move t)
  obtain ⟨h₂, clock₂⟩ := h₁.moves cancelsDue
  rw [clock₁] at clock₂ cancelsDue thrown
  refine ⟨ends ++ cancels, fun m hm => ?_, ?_⟩
  · exact (List.mem_append.1 hm).elim (endsDue m) (cancelsDue m)
  rw [List.foldl_append]
  constructor
  · intro k lt live p hp
    have le := h₂.onTime.pending k lt live p hp
    rw [clock₂] at le
    refine Nat.lt_of_le_of_ne le fun same => ?_
    -- A call that is due now has ended.
    have ended := done k (List.mem_range.2 lt) p.2 (by rw [same]; exact hp)
    rw [(drift_moves cancels _).world.keeps.isOver ended] at live
    cases live
  · intro unthrown c hc
    have le := h₂.onTime.going unthrown c hc
    rw [clock₂] at le
    refine Nat.lt_of_le_of_ne le fun same => ?_
    rw [thrown c hc (Nat.le_of_eq same.symm)] at unthrown
    cases unthrown

theorem canReturn_of_isDone {i : Join} (h : Underway timing request round start (some i) t)
    (done : i.isDone = true) : CanReturn timing request round (some i) t := by
  have course := h.course i rfl
  have due : ∀ m ∈ i.aborted.map (Move.stop round), timing.Due round t.clock m := by
    intro m hm
    obtain ⟨k, -, rfl⟩ := List.mem_map.1 hm
    trivial
  refine .besides due ?_
  let t' := (i.aborted.map (Move.stop round)).foldl Stage.move t
  have stopped : ∀ k ∈ i.aborted, t'.inner.isOver round k = true := by
    refine isOver_stops fun k hk => ?_
    -- A call with an outcome has ended or was asked to stop.
    obtain ⟨o, ho⟩ : ∃ o, i.settled[k]? = some o :=
      ⟨_, List.getElem?_eq_getElem (course.asked k hk)⟩
    obtain ⟨u, here, accounts⟩ := course.waits.accounts k o ho
    refine ⟨u, here, ?_⟩
    cases accounts with
    | ended e status => exact .inl (by simp [Task.isOver, status])
    | timedOut aborted => exact .inr aborted
    | abandoned aborted => exact .inr aborted
  have returned : i.outcomes? (t'.inner.isOver round) = some i.settled := by
    rw [Join.outcomes?, done, List.all_eq_true.2 stopped]
    rfl
  exact .now returned

/-- A join in virtual time can return, by induction on `Join.ahead`: once all that is due has
happened, either the next turn gets on or time may pass to what is due next. -/
theorem canReturn_of_some {i : Join} (h : Underway timing request round start (some i) t)
    (untied : timing.Untied request start) (room : timing.HasRoom request t.origin start) :
    CanReturn timing request round (some i) t := by
  -- Each turn leaves fewer of them ahead, and when there is nothing to do the return comes nearer.
  generalize ahead : i.ahead + (timing.finish request start - t.clock) = bound
  induction bound using Nat.strong_induction_on generalizing i t with
  | _ bound ih =>
    cases done : i.isDone with
    | true => exact h.canReturn_of_isDone done
    | false =>
      obtain ⟨moves, due, ends, cancel⟩ := h.exists_settled
      obtain ⟨h', clock⟩ := h.moves due
      refine .besides due ?_
      have host : (moves.foldl Stage.move t).origin = t.origin := (drift_moves moves t).origin
      obtain ⟨i', stop, turned⟩ := h'.exists_turn untied (by rwa [host])
      rcases Join.ahead_turn turned with ⟨rfl, rfl⟩ | fewer
      · -- The join waits, and the next instant may come.
        obtain ⟨-, -, -, -, -, before, -⟩ := Join.idle_of_turn done turned
        have allows : timing.Allows request round (some i') _ (.elapse 1) :=
          { waits := ⟨i', rfl, done, turned, before⟩
            calls := fun k lt live p hp => by
              rw [clock]
              exact ends k lt live p hp
            cancel := fun unthrown c hc => by
              rw [clock]
              exact cancel unthrown c hc }
        have later := h'.move allows
        have room' : timing.HasRoom request ((moves.foldl Stage.move t).move (.elapse 1)).origin
            start := by rwa [(drift_move _ _).origin, host]
        refine .beside allows (ih _ ?_ later room' rfl)
        have le : (moves.foldl Stage.move t).clock + 1 ≤ timing.finish request start :=
          later.le_finish
        show i'.ahead +
          (timing.finish request start - ((moves.foldl Stage.move t).clock + 1)) < bound
        omega
      · have waits : (some i).bind (Join.outcomes?
            ((moves.foldl Stage.move t).inner.isOver round)) = none := by
          simp [Join.outcomes?, done]
        have room' : timing.HasRoom request ((moves.foldl Stage.move t).abort round stop).origin
            start := by rwa [(drift_abort _ round stop).origin, host]
        refine .turn waits turned (ih _ ?_ (h'.turn untied turned) room' rfl)
        have same : ((moves.foldl Stage.move t).abort round stop).clock = t.clock := by
          cases stop <;> exact clock
        rw [same]
        omega

theorem canReturn (h : Underway timing request round start j t)
    (untied : timing.Untied request start) (room : timing.HasRoom request t.origin start) :
    CanReturn timing request round j t := by
  match j with
  | some i => exact h.canReturn_of_some untied room
  | none =>
    obtain ⟨i, stop, turned⟩ := h.exists_turn untied room
    have room' : timing.HasRoom request (t.abort round stop).origin start := by
      rwa [(drift_abort t round stop).origin]
    exact .turn rfl turned ((h.turn untied turned).canReturn_of_some untied room')

/-- Every schedule in virtual time can go on so that the join returns; no schedule leads into a dead
end. -/
theorem exists_more (h : Underway timing request round start j t)
    (untied : timing.Untied request start) (room : timing.HasRoom request t.origin start)
    {slots : List Slot} (punctual : timing.Punctual request round slots j t) :
    ∃ more, timing.Punctual request round (slots ++ more) j t ∧
      (Stage.await request round (slots ++ more) j t).1.isSome = true := by
  induction slots generalizing j t with
  | nil => exact h.canReturn untied room
  | cons slot slots ih =>
    match slot with
    | .beside m =>
      obtain ⟨more, later, returns⟩ :=
        ih (h.move punctual.1) (by rwa [(drift_move t m).origin]) punctual.2
      exact ⟨more, ⟨punctual.1, later⟩, returns⟩
    | .run =>
      cases waits : j.bind (Join.outcomes? (t.inner.isOver round)) with
      | some outcomes =>
        -- The join has returned already.
        refine ⟨[], ?_, ?_⟩
        · simp only [List.cons_append, Timing.Punctual, waits]
        · simp only [List.cons_append, Stage.await, waits, Option.isSome_some]
      | none =>
        obtain ⟨i, stop, turned⟩ := h.exists_turn untied room
        simp only [Timing.Punctual, waits, turned] at punctual
        obtain ⟨more, later, returns⟩ :=
          ih (h.turn untied turned) (by rwa [(drift_abort t round stop).origin]) punctual
        refine ⟨more, ?_, ?_⟩
        · simp only [List.cons_append, Timing.Punctual, waits, turned]
          exact later
        · rw [List.cons_append, Stage.await_turn request round _ t waits, turned]
          exact returns

end Underway

/-! ## The join of a phase -/

namespace Timing

/-- The calls of `request` are yet to be made on the scene `t`, and `timing` is about what comes
then. -/
structure Begins (timing : Timing) (request : JoinRequest) (t : Stage) : Prop
    extends Untied timing request t.clock where
  /-- No call ends before it is made. -/
  later : ∀ i < request.targets.length, ∀ p ∈ timing.ends i, t.clock ≤ p.1
  /-- A run that is cancelled was to be. -/
  cancelled : t.controls.runCancelled = true → ∃ c ∈ timing.cancel, c ≤ t.clock
  /-- No cancellation was missed. -/
  going : t.controls.runCancelled = false → ∀ c ∈ timing.cancel, t.clock ≤ c

/-- The calls of `request` are made on the scene `t` and joined in virtual time while `slots` is the
schedule. -/
def PunctualJoin (timing : Timing) (request : JoinRequest) (t : Stage) (slots : List Slot) : Prop :=
  timing.Punctual request t.inner.rounds.length slots none (t.spawn request)

/-- In virtual time the join of `request` may return `outcomes` at `instant`: it does so under some
schedule. -/
def MayReturn (timing : Timing) (request : JoinRequest) (t : Stage)
    (outcomes : List CallOutcome) (instant : Nat) : Prop :=
  ∃ slots t', timing.PunctualJoin request t slots ∧
    (t.stand .free slots).join request = (some outcomes, t') ∧ t'.clock = instant

end Timing

/-- What the join of `request`, begun on the scene `t`, comes to in virtual time. The outcomes and
the instant of its return are those that `timing.outcomes` and `timing.finish` compute from the
timing alone, it does return, it takes boundedly many turns, and position and company are of no
matter to a call. -/
structure MeetsDeadline (timing : Timing) (request : JoinRequest) (t : Stage) : Prop where
  /-- Whatever it returns is one outcome for each call, in the order of the observers: how the call
  ended if it did so before `timing.deadline`, and `timing.missed` for all others. It returns when
  the last call has ended or at the deadline, whichever is earlier. -/
  exact : ∀ outcomes instant, timing.MayReturn request t outcomes instant →
    outcomes = timing.outcomes request t.clock ∧ instant = timing.finish request t.clock
  /-- From wherever a schedule in virtual time has led it, it can return, as long as there is room
  for its deadlines. -/
  returns : timing.HasRoom request t.origin t.clock → ∀ slots, timing.PunctualJoin request t slots →
    ∃ more, timing.PunctualJoin request t (slots ++ more) ∧
      ((t.stand .free (slots ++ more)).join request).1.isSome = true
  /-- Under every schedule in virtual time it gets on at most once for each call and twice more, and
  time does not pass beyond `timing.finish`. -/
  ends : ∀ slots, timing.PunctualJoin request t slots →
    Stage.advances request t.inner.rounds.length slots none (t.spawn request) ≤
      request.targets.length + 2 ∧
    ((t.stand .free slots).join request).2.clock ≤ timing.finish request t.clock
  /-- Wherever an observer stands and whatever the other calls do, calls that end alike come out
  alike: `timing'`, `request'` and `t'` share nothing with these but the limits, the instant of the
  beginning and the cancellation. -/
  alike : ∀ (timing' : Timing) (request' : JoinRequest) (t' : Stage), timing'.Begins request' t' →
    request'.limits = request.limits → t'.clock = t.clock →
    timing'.heeded request' = timing.heeded request →
    ∀ outcomes outcomes' instant instant', timing.MayReturn request t outcomes instant →
      timing'.MayReturn request' t' outcomes' instant' →
      ∀ i < request.targets.length, ∀ k < request'.targets.length,
        timing.ends i = timing'.ends k → outcomes[i]? = outcomes'[k]?

theorem Stage.join_stand (request : JoinRequest) (t : Stage) (slots : List Slot) :
    (t.stand .free slots).join request =
      let awaited := await request t.inner.rounds.length slots none (t.spawn request)
      (awaited.1, awaited.2.note t.inner.rounds.length awaited.1) := by
  show (let awaited :=
      await request t.inner.rounds.length slots none ((t.spawn request).stand .free slots)
    (awaited.1, awaited.2.note t.inner.rounds.length awaited.1)) = _
  rw [await_stand]

theorem Timing.Begins.underway {t : Stage} (begins : timing.Begins request t) :
    Underway timing request t.inner.rounds.length t.clock none (t.spawn request) where
  onTime :=
    { ended := fun i e ended => by
        rw [World.ending?, Stage.task?_spawn_new] at ended
        cases target : request.targets[i]? <;> simp [target, Task.ending?] at ended
      pending := fun i lt _ => begins.later i lt
      cancelled := begins.cancelled
      going := begins.going }
  fresh := fun _ => ⟨rfl, Stage.kept_spawn request t⟩
  course := fun _ none => absurd none.symm (Option.some_ne_none _)

theorem Timing.Begins.exact {t : Stage} (begins : timing.Begins request t)
    {outcomes : List CallOutcome} {instant : Nat}
    (returns : timing.MayReturn request t outcomes instant) :
    outcomes = timing.outcomes request t.clock ∧ instant = timing.finish request t.clock := by
  obtain ⟨slots, t', punctual, joined, rfl⟩ := returns
  rw [Stage.join_stand] at joined
  obtain ⟨returned, rfl⟩ := Prod.mk.inj joined
  exact (begins.underway.await begins.toUntied punctual).2 outcomes returned

theorem MeetsDeadline.mayReturn {t : Stage} (h : MeetsDeadline timing request t)
    (room : timing.HasRoom request t.origin t.clock) :
    timing.MayReturn request t (timing.outcomes request t.clock)
      (timing.finish request t.clock) := by
  obtain ⟨slots, punctual, returns⟩ := h.returns room [] trivial
  obtain ⟨outcomes, returned⟩ := Option.isSome_iff_exists.1 returns
  have joined : timing.MayReturn request t outcomes
      ((t.stand .free ([] ++ slots)).join request).2.clock :=
    ⟨_, _, punctual, Prod.ext returned rfl, rfl⟩
  obtain ⟨same, instant⟩ := h.exact _ _ joined
  rw [same, instant] at joined
  exact joined

/-- In virtual time the join of a phase meets its deadline, whatever the timing is, as long as it
leaves no doubt (`Timing.Untied`). -/
theorem join_meets_deadline {timing : Timing} {request : JoinRequest} {t : Stage}
    (begins : timing.Begins request t) : MeetsDeadline timing request t where
  exact _ _ returns := begins.exact returns
  returns room slots punctual := by
    obtain ⟨more, later, returns⟩ :=
      begins.underway.exists_more begins.toUntied room punctual
    refine ⟨more, later, ?_⟩
    rw [Stage.join_stand]
    exact returns
  ends slots punctual := by
    refine ⟨Stage.advances_le request _ slots none _, ?_⟩
    rw [Stage.join_stand]
    exact (begins.underway.await begins.toUntied punctual).1
  alike timing' request' t' begins' limits clock heeded outcomes outcomes' instant instant'
      returns returns' i lt k lt' same := by
    rw [(begins.exact returns).1, (begins'.exact returns').1, Timing.getElem?_outcomes lt,
      Timing.getElem?_outcomes lt', same, clock, Timing.outcome_congr limits heeded]

def twoCalls : JoinRequest where
  targets := [default, default]
  call := .evaluation ⟨[]⟩
  limits := { timeout := .ofSecs 1, grace := ⟨10000000⟩ }

/-- One call of `twoCalls` ends in time, and the other one does not before the run is cancelled. -/
def cutHalfway : Timing where
  ends := fun i => if i = 0 then some (20, .returned {}) else some (900, .returned {})
  cancel := some 50

theorem join_meets_deadline_of_cancellation :
    MeetsDeadline cutHalfway twoCalls { origin := 0, inner := {} } ∧
      cutHalfway.MayReturn twoCalls { origin := 0, inner := {} } [.returned {}, .abandoned] 60 := by
  have begins : cutHalfway.Begins twoCalls { origin := 0, inner := {} } :=
    { ends := by decide
      cancel := by decide
      later := by decide
      cancelled := by decide
      going := by decide }
  have room : cutHalfway.HasRoom twoCalls 0 0 := ⟨by decide, by decide⟩
  have outcomes : cutHalfway.outcomes twoCalls 0 = [.returned {}, .abandoned] := by decide
  have finish : cutHalfway.finish twoCalls 0 = 60 := by decide
  have meets := join_meets_deadline begins
  have returns := meets.mayReturn room
  refine ⟨meets, ?_⟩
  rw [← outcomes, ← finish]
  exact returns

end Vigil.Schedule
