import Mathlib.Data.List.Infix
import Vigil.Proofs.Deadlines
import Vigil.Proofs.Punctual.Basic

/-!
# The course of a join in virtual time

In virtual time no turn of a join and nothing that goes on beside it takes the outcomes that are
settled so far off those of the specification. So whatever a join returns is what the specification
says, at the instant that it says.

The module introduces:

* `Join.ahead`, a bound on the turns by which a join gets on;
* `OnTime`, when a scene under a schedule is where its timing has it;
* `OnCourse`, the invariant of the loop over the calls, and `Underway`, that of a whole join.
-/

namespace Vigil

theorem later?_eq_some {origin now instant : Nat} {d : Duration}
    (room : later? origin now d = some instant) :
    instant = now + d.millisUp := by
  unfold later? at room
  split at room
  · exact (Option.some.inj room).symm
  · cases room

namespace Join

variable {origin now : Nat} {cancelled : Bool} {ending? : Nat → Option Ending} {j j' : Join}

theorem idle_of_turn (waits : j.isDone = false)
    (turned : j.turn origin now cancelled ending? = some (j, none)) :
    ∃ call rest, j.waiting = call :: rest ∧ ending? call = none ∧ j.expired = false ∧
      now < j.deadline ∧ (cancelled = true → j.cancelSeen = true) := by
  -- Every other turn changes the join or asks a call to stop.
  suffices idle : ∀ j' stop, Turned origin now cancelled ending? j j' stop → j' = j → stop = none →
      ∃ call rest, j.waiting = call :: rest ∧ ending? call = none ∧ j.expired = false ∧
        now < j.deadline ∧ (cancelled = true → j.cancelSeen = true) from
    idle j none (turned_of_turn turned) rfl rfl
  intro j' stop turned same still
  cases turned with
  | done waiting => simp [isDone, waiting] at waits
  | ended waiting =>
    have shorter := congrArg Join.waiting same
    simp [takeOver, waiting] at shorter
  | late => cases still
  | seen _ _ _ _ _ unseen =>
    have seen := congrArg cancelSeen same
    simp [unseen] at seen
  | idle waiting unended going early quiet => exact ⟨_, _, waiting, unended, going, early, quiet⟩

/-- How many turns by which the join `j` gets on may be ahead: one for each call that is awaited,
and one for a cancellation. -/
def ahead (j : Join) : Nat := j.waiting.length + if j.cancelSeen then 0 else 1

theorem ahead_turn {stop : Option Nat}
    (turned : j.turn origin now cancelled ending? = some (j', stop)) :
    j' = j ∧ stop = none ∨ j'.ahead < j.ahead := by
  cases turned_of_turn turned with
  | done => exact .inl ⟨rfl, rfl⟩
  | ended waiting =>
    refine .inr (Nat.add_lt_add_right ?_ _)
    simp [takeOver, waiting]
  | late waiting =>
    refine .inr (Nat.add_lt_add_right ?_ _)
    simp [giveUp, waiting]
  | seen _ _ _ _ _ unseen => exact .inr (by simp [ahead, unseen])
  | idle => exact .inl ⟨rfl, rfl⟩

theorem start?_eq_some {limits : JoinLimits} {calls : List Nat}
    (started : start? origin limits now cancelled calls = some j) :
    j.cancelSeen = cancelled ∧ j.expired = false ∧
      j.deadline = if cancelled then
        min (now + limits.timeout.millisUp) (now + limits.grace.millisUp)
      else now + limits.timeout.millisUp := by
  simp only [start?, Option.bind_eq_bind] at started
  obtain ⟨deadline, room, started⟩ := Option.bind_eq_some_iff.1 started
  obtain rfl := later?_eq_some room
  split at started
  · next seen =>
    obtain ⟨moved, room, started⟩ := Option.bind_eq_some_iff.1 started
    obtain rfl := later?_eq_some room
    cases started
    exact ⟨seen.symm, rfl, (if_pos seen).symm⟩
  · next unseen =>
    cases started
    exact ⟨(Bool.eq_false_iff.2 unseen).symm, rfl, (if_neg unseen).symm⟩

end Join

namespace Schedule

/-! ## What goes on beside a join -/

theorem World.ending?_change {f : Task → Task} (same : ∀ u, (f u).ending? = u.ending?)
    (w : World) (n k round i : Nat) :
    (w.change n k f).ending? round i = w.ending? round i := by
  rw [World.ending?, World.task?_change, World.ending?]
  cases w.task? round i with
  | none => rfl
  | some u =>
    show (if n = round ∧ k = i then f u else u).ending? = u.ending?
    split
    · exact same u
    · rfl

namespace Task

theorem ending?_enter (u : Task) : u.enter.ending? = u.ending? := by
  unfold enter
  split
  · next fresh => simp [ending?, fresh]
  · rfl

theorem ending?_stop (u : Task) : u.stop.ending? = u.ending? := by
  unfold stop
  split
  · rfl
  · next live =>
    split
    · -- A task that goes on has not ended.
      cases status : u.status with
      | ended e => simp [isOver, status] at live
      | _ => simp [ending?, status]
    · rfl

theorem ending?_abort (u : Task) : u.abort.ending? = u.ending? := by
  unfold abort
  split <;> rfl

theorem ending?_finish {u : Task} {e e' : Ending} (ended : (u.finish e').ending? = some e) :
    u.ending? = some e ∨ e' = e := by
  unfold finish at ended
  split at ended
  · exact .inr (Option.some.inj ended)
  · exact .inl ended

end Task

/-- A task that has ended beside a run had done so before, or it does so now. -/
theorem Stage.ending?_move {t : Stage} {m : Move} {round i : Nat} {e : Ending}
    (ended : (t.move m).inner.ending? round i = some e) :
    t.inner.ending? round i = some e ∨ m = .finish round i e := by
  cases m with
  | enter n k =>
    left
    rw [← World.ending?_change Task.ending?_enter t.inner n k]
    exact ended
  | stop n k =>
    left
    rw [← World.ending?_change Task.ending?_stop t.inner n k]
    exact ended
  -- This is the one move with which a task can end.
  | finish n k e' =>
    change (t.inner.change n k (Task.finish e')).ending? round i = some e at ended
    rw [World.ending?, World.task?_change] at ended
    rw [World.ending?]
    cases task : t.inner.task? round i with
    | none => simp [task] at ended
    | some u =>
      rw [task] at ended
      change (if n = round ∧ k = i then u.finish e' else u).ending? = some e at ended
      split at ended
      · next here =>
        obtain ⟨rfl, rfl⟩ := here
        exact (Task.ending?_finish ended).imp_right (congrArg _)
      · exact .inl ended
  | record interval =>
    obtain ⟨_, _, same⟩ := t.exists_move_record interval
    rw [same] at ended
    exact .inl ended
  | _ => exact .inl ended

theorem Stage.ending?_abort (t : Stage) (round : Nat) (stop : Option Nat) (i : Nat) :
    (t.abort round stop).inner.ending? round i = t.inner.ending? round i := by
  cases stop with
  | none => rfl
  | some k => exact World.ending?_change Task.ending?_abort t.inner round k round i

theorem Stage.runCancelled_move (t : Stage) (m : Move) :
    (t.move m).controls.runCancelled = t.controls.runCancelled ∨
      m = .cancelRun ∧ (t.move m).controls.runCancelled = true := by
  cases m with
  | cancelRun => exact .inr ⟨rfl, rfl⟩
  | record i =>
    obtain ⟨_, _, same⟩ := t.exists_move_record i
    rw [same]
    exact .inl rfl
  | _ => exact .inl rfl

/-- The scene `t` is where `timing` has it: the calls that have ended are those that were due, and
none has missed its end; the same for the cancellation. -/
structure OnTime (timing : Timing) (request : JoinRequest) (round : Nat) (t : Stage) : Prop where
  /-- Every call that has ended was due. -/
  ended : ∀ i e, t.inner.ending? round i = some e →
    ∃ instant ≤ t.clock, timing.ends i = some (instant, e)
  /-- No call that goes on has missed its end. -/
  pending : ∀ i < request.targets.length, t.inner.isOver round i = false →
    ∀ p ∈ timing.ends i, t.clock ≤ p.1
  /-- A run that is cancelled was to be. -/
  cancelled : t.controls.runCancelled = true → ∃ c ∈ timing.cancel, c ≤ t.clock
  going : t.controls.runCancelled = false → ∀ c ∈ timing.cancel, t.clock ≤ c

variable {timing : Timing} {request : JoinRequest} {round start : Nat} {t : Stage} {m : Move}

theorem Timing.Due.clock (due : timing.Due round t.clock m) : (t.move m).clock = t.clock := by
  cases m with
  | elapse => exact due.elim
  | record i =>
    obtain ⟨_, _, same⟩ := t.exists_move_record i
    rw [same]
  | _ => rfl

theorem Timing.Due.allows {j : Option Join} (due : timing.Due round t.clock m) :
    timing.Allows request round j t m := by
  cases m with
  | elapse => exact due.elim
  | _ => exact due

/-- Time stands still unless it may pass, which is what `MayPass` allows. -/
theorem Timing.Allows.clock {j : Option Join} (allows : timing.Allows request round j t m) :
    (t.move m).clock = t.clock ∨ timing.MayPass request round j t (t.move m).clock := by
  have cases : timing.Due round t.clock m ∨
      timing.MayPass request round j t (t.move m).clock := by
    cases m with
    | elapse => exact .inr allows
    | _ => exact .inl allows
  exact cases.imp_left Timing.Due.clock

namespace OnTime

/-- What goes on beside a join in virtual time leaves the scene in time, since each move is one that
`Allows` permits. -/
theorem move (h : OnTime timing request round t) {j : Option Join}
    (allows : timing.Allows request round j t m) : OnTime timing request round (t.move m) where
  ended i e ended := by
    rcases Stage.ending?_move ended with before | rfl
    · obtain ⟨instant, le, ends⟩ := h.ended i e before
      exact ⟨instant, Nat.le_trans le (t.clock_move m), ends⟩
    · exact ⟨t.clock, Nat.le_refl _, allows rfl⟩
  -- A call that has not ended yet had not ended before, and time passes no end that is due.
  pending i lt unended p ends := by
    have before : t.inner.isOver round i = false := by
      refine Bool.eq_false_iff.2 fun past => ?_
      have keeps := ((drift_move t m).world.mono fun _ _ moved => moved.toLater).keeps
      rw [keeps.isOver past] at unended
      cases unended
    rcases allows.clock with same | passes
    · rw [same]
      exact h.pending i lt before p ends
    · exact passes.calls i lt before p ends
  cancelled thrown := by
    rcases t.runCancelled_move m with same | ⟨rfl, -⟩
    · rw [same] at thrown
      obtain ⟨c, cancel, le⟩ := h.cancelled thrown
      exact ⟨c, cancel, Nat.le_trans le (t.clock_move m)⟩
    · exact allows
  going unthrown c cancel := by
    have before : t.controls.runCancelled = false := by
      rcases t.runCancelled_move m with same | ⟨-, thrown⟩
      · exact same.symm.trans unthrown
      · rw [thrown] at unthrown
        cases unthrown
    rcases allows.clock with same | passes
    · rw [same]
      exact h.going before c cancel
    · exact passes.cancel before c cancel

theorem abort (h : OnTime timing request round t) (stop : Option Nat) :
    OnTime timing request round (t.abort round stop) := by
  have clock : (t.abort round stop).clock = t.clock := by cases stop <;> rfl
  have controls : (t.abort round stop).controls = t.controls := by cases stop <;> rfl
  exact
    { ended := fun i e ended => by
        rw [Stage.ending?_abort] at ended
        rw [clock]
        exact h.ended i e ended
      pending := fun i lt unended => by
        rw [clock]
        -- A call that was over before is still over.
        refine h.pending i lt (Bool.eq_false_iff.2 fun past => ?_)
        rw [(drift_abort t round stop).world.keeps.isOver past] at unended
        cases unended
      cancelled := fun thrown => by
        rw [controls] at thrown
        rw [clock]
        exact h.cancelled thrown
      going := fun unthrown => by
        rw [controls] at unthrown
        rw [clock]
        exact h.going unthrown }

theorem heeded (h : OnTime timing request round t)
    (cancelled : (request.call.phase != .cleanup && t.controls.runCancelled) = true) :
    ∃ c ∈ timing.heeded request, c ≤ t.clock := by
  rw [Bool.and_eq_true, bne_iff_ne] at cancelled
  obtain ⟨c, cancel, le⟩ := h.cancelled cancelled.2
  exact ⟨c, Timing.mem_heeded.2 ⟨cancelled.1, cancel⟩, le⟩

theorem unheeded (h : OnTime timing request round t)
    (going : (request.call.phase != .cleanup && t.controls.runCancelled) = false) :
    ∀ c ∈ timing.heeded request, t.clock ≤ c := by
  intro c heeded
  obtain ⟨working, cancel⟩ := Timing.mem_heeded.1 heeded
  rw [bne_iff_ne.2 working, Bool.true_and] at going
  exact h.going going c cancel

end OnTime

/-! ## The loop over the calls -/

/-- The invariant of the loop over the calls of a phase that began at the instant `start`: it is
where `timing` has it, with the outcomes so far a prefix of `timing.outcomes`. -/
structure OnCourse (timing : Timing) (request : JoinRequest) (round start : Nat) (j : Join)
    (t : Stage) : Prop where
  waits : Waits request.limits request.targets.length round t.inner j
  begun : start ≤ t.clock
  /-- The join is not to have returned before. -/
  le_finish : t.clock ≤ timing.finish request start
  /-- As long as no cancellation has been seen, none has come. -/
  unseen : j.cancelSeen = false → j.deadline = Timing.limit request start ∧
    ∀ c ∈ timing.heeded request, t.clock ≤ c
  /-- Only an early cancellation has been seen, and it has moved the deadline. -/
  seen : j.cancelSeen = true → (timing.early request start).isSome = true ∧
    j.deadline = timing.deadline request start
  /-- The outcomes so far are those that were to come. -/
  settled : j.settled <+: timing.outcomes request start
  /-- Only calls with an outcome were asked to stop. -/
  asked : ∀ i ∈ j.aborted, i < j.settled.length
  /-- Calls are given up at the deadline, with the outcome that is due. -/
  late : j.expired = true → t.clock = timing.deadline request start ∧
    j.stopped = timing.missed request start
  /-- Until then each call with an outcome has ended. -/
  ended : j.expired = false → ∀ i < j.settled.length, ∃ p ∈ timing.ends i, p.1 ≤ t.clock

namespace OnCourse

variable {j j' : Join} {stop : Option Nat}

theorem settle (h : OnCourse timing request round start j t)
    (lt : j.settled.length < request.targets.length) :
    j.settled ++ [timing.outcome request start (timing.ends j.settled.length)] <+:
      timing.outcomes request start := by
  have lt' : j.settled.length < (timing.outcomes request start).length := by
    rw [Timing.length_outcomes]
    exact lt
  have next : (timing.outcomes request start).get ⟨j.settled.length, lt'⟩ =
      timing.outcome request start (timing.ends j.settled.length) :=
    Option.some.inj ((List.getElem?_eq_getElem lt').symm.trans (Timing.getElem?_outcomes lt))
  rw [← next]
  exact List.concat_get_prefix h.settled lt'

/-- As long as no cancellation was seen none has come, and otherwise the deadline is the one of the
timing: so the deadline of a join is missed neither way. -/
theorem le_deadline (h : OnCourse timing request round start j t) {instant : Nat}
    (le : instant ≤ j.deadline)
    (going : j.cancelSeen = false → ∀ c ∈ timing.heeded request, instant ≤ c) :
    instant ≤ timing.deadline request start := by
  cases seen : j.cancelSeen with
  | true =>
    rw [← (h.seen seen).2]
    exact le
  | false =>
    refine Timing.le_deadline ?_ fun c heeded => ?_
    · rw [← (h.unseen seen).1]
      exact le
    · exact Nat.le_trans (going seen c heeded) (Nat.le_max_left ..)

theorem move (h : OnCourse timing request round start j t)
    (allows : timing.Allows request round (some j) t m) :
    OnCourse timing request round start j (t.move m) := by
  have waits : Waits request.limits request.targets.length round (t.move m).inner j :=
    h.waits.moved (drift_move t m).world
  have clock : t.clock ≤ (t.move m).clock := t.clock_move m
  rcases allows.clock with same | passes
  · exact
      { h with
        waits
        begun := Nat.le_trans h.begun clock
        le_finish := by rw [same]; exact h.le_finish
        unseen := by rw [same]; exact h.unseen
        late := by rw [same]; exact h.late
        ended := by rw [same]; exact h.ended }
  · -- The join waits for a call, and neither this call nor a cancellation has been missed.
    obtain ⟨i, same, going, turned, le⟩ := passes.waits
    obtain rfl : j = i := Option.some.inj same
    obtain ⟨call, rest, waiting, unended, unexpired, -, quiet⟩ := Join.idle_of_turn going turned
    obtain ⟨task, here, live⟩ := h.waits.live waiting unended
    obtain ⟨rfl, lt, -⟩ := range'_eq_cons (h.waits.waiting.symm.trans waiting)
    have pending : t.inner.isOver round j.settled.length = false := by
      simp [World.isOver, here, live]
    have going (unseen : j.cancelSeen = false) :
        ∀ c ∈ timing.heeded request, (t.move m).clock ≤ c := by
      intro c heeded
      obtain ⟨working, cancel⟩ := Timing.mem_heeded.1 heeded
      -- A cancellation that had come would be seen before time passes.
      refine passes.cancel (Bool.eq_false_iff.2 fun cancelled => ?_) c cancel
      rw [quiet (by rw [cancelled, bne_iff_ne.2 working]; rfl)] at unseen
      cases unseen
    exact
      { h with
        waits
        begun := Nat.le_trans h.begun clock
        le_finish := Timing.le_finish lt (h.le_deadline le going)
          (passes.calls _ lt pending)
        unseen := fun unseen => ⟨(h.unseen unseen).1, going unseen⟩
        late := fun expired => by
          rw [unexpired] at expired
          cases expired
        ended := fun unexpired k hk => by
          obtain ⟨p, ends, le⟩ := h.ended unexpired k hk
          exact ⟨p, ends, Nat.le_trans le clock⟩ }

theorem missed (h : OnCourse timing request round start j t)
    (late : j.expired = true ∨ j.deadline ≤ t.clock) :
    t.clock = timing.deadline request start ∧ j.stopped = timing.missed request start := by
  rcases late with expired | late
  · exact h.late expired
  have le : t.clock ≤ timing.deadline request start :=
    Nat.le_trans h.le_finish (Nat.min_le_left ..)
  unfold Join.stopped
  cases seen : j.cancelSeen with
  | true =>
    obtain ⟨early, moved⟩ := h.seen seen
    rw [moved] at late
    exact ⟨Nat.le_antisymm le late, (if_pos early).symm⟩
  | false =>
    obtain ⟨unmoved, going⟩ := h.unseen seen
    rw [unmoved] at late
    -- A cancellation that is still to come is not an early one any more.
    have unheeded : timing.early request start = none :=
      Timing.early_eq_none fun c heeded => Nat.le_trans late (going c heeded)
    refine ⟨Nat.le_antisymm le ?_, ?_⟩
    · rw [Timing.deadline_of_late unheeded]
      exact late
    · rw [Timing.missed, unheeded, h.waits.limits_eq]
      rfl

theorem takeOver (h : OnCourse timing request round start j t)
    (onTime : OnTime timing request round t) (untied : timing.Untied request start) {call : Nat}
    {rest : List Nat} {e : Ending} (waiting : j.waiting = call :: rest)
    (ended : t.inner.ending? round call = some e) :
    OnCourse timing request round start (j.takeOver e rest) t := by
  obtain ⟨rfl, lt, -⟩ := range'_eq_cons (h.waits.waiting.symm.trans waiting)
  obtain ⟨instant, le, ends⟩ := onTime.ended _ e ended
  -- It has ended by now, which is at the deadline at the latest, and not right at the deadline.
  have early : instant < timing.deadline request start := by
    refine Nat.lt_of_le_of_ne ?_ (untied.ends _ lt _ ends)
    exact Nat.le_trans le (Nat.le_trans h.le_finish (Nat.min_le_left ..))
  have length : (j.takeOver e rest).settled.length = j.settled.length + 1 := by
    simp [Join.takeOver]
  exact
    { h with
      waits := h.waits.takeOver waiting ended
      settled := by
        have next := h.settle lt
        rw [ends, Timing.outcome_of_lt e early] at next
        exact next
      asked := fun i hi => by
        rw [length]
        exact Nat.lt_succ_of_lt (h.asked i hi)
      ended := fun unexpired i hi => by
        rw [length] at hi
        rcases Nat.lt_succ_iff_lt_or_eq.1 hi with hi | rfl
        · exact h.ended unexpired i hi
        · exact ⟨_, ends, le⟩ }

theorem giveUp (h : OnCourse timing request round start j t)
    (onTime : OnTime timing request round t) {call : Nat} {rest : List Nat}
    (waiting : j.waiting = call :: rest) (unended : t.inner.ending? round call = none)
    (late : j.expired = true ∨ j.deadline ≤ t.clock) :
    OnCourse timing request round start (j.giveUp call rest) (t.abort round (some call)) := by
  obtain ⟨task, here, live⟩ := h.waits.live waiting unended
  have waits := h.waits.giveUp waiting unended
  -- Calls are settled in their order, so the next one has the number of those that are settled.
  obtain ⟨rfl, lt, -⟩ := range'_eq_cons (h.waits.waiting.symm.trans waiting)
  obtain ⟨due, stopped⟩ := h.missed late
  have pending : t.inner.isOver round j.settled.length = false := by
    simp [World.isOver, here, live]
  have length : (j.giveUp j.settled.length rest).settled.length = j.settled.length + 1 := by
    simp [Join.giveUp]
  exact
    { h with
      waits
      settled := by
        have next := h.settle lt
        rw [Timing.outcome_of_le, ← stopped] at next
        · exact next
        · -- It would have ended at the deadline otherwise.
          rw [← due]
          exact onTime.pending _ lt pending
      asked := fun i hi => by
        rw [length]
        rcases List.mem_append.1 hi with hi | hi
        · exact Nat.lt_succ_of_lt (h.asked i hi)
        · rw [List.mem_singleton.1 hi]
          exact Nat.lt_succ_self _
      late := fun _ => ⟨due, stopped⟩
      ended := fun going => absurd going.symm Bool.false_ne_true }

/-- A cancellation is seen as soon as it comes, and then it is `Timing.early`. -/
theorem early (h : OnCourse timing request round start j t)
    (onTime : OnTime timing request round t) (before : t.clock < j.deadline)
    (cancelled : (request.call.phase != .cleanup && t.controls.runCancelled) = true)
    (unseen : j.cancelSeen = false) : t.clock ∈ timing.early request start := by
  obtain ⟨unmoved, soon⟩ := h.unseen unseen
  obtain ⟨c, heeded, le⟩ := onTime.heeded cancelled
  obtain rfl : t.clock = c := Nat.le_antisymm (soon c heeded) le
  rw [unmoved] at before
  exact Timing.mem_early.2 ⟨heeded, before⟩

/-- A cancellation is seen by a turn, and the deadline is moved to where `Timing.deadline` has
it. -/
theorem see (h : OnCourse timing request round start j t)
    (onTime : OnTime timing request round t) {moved : Nat} (going : j.expired = false)
    (before : t.clock < j.deadline)
    (cancelled : (request.call.phase != .cleanup && t.controls.runCancelled) = true)
    (unseen : j.cancelSeen = false) (room : later? t.origin t.clock j.limits.grace = some moved) :
    OnCourse timing request round start
      { j with deadline := min j.deadline moved, cancelSeen := true } t := by
  -- The cancellation comes before the deadline, which is where `Timing.early` finds it.
  have early := h.early onTime before cancelled unseen
  exact
    { h with
      waits := ⟨h.waits.limits_eq, h.waits.le_size, h.waits.waiting, h.waits.accounts, h.waits.done,
        h.waits.kept⟩
      unseen := nofun
      seen := fun _ => by
        refine ⟨Option.isSome_iff_exists.2 ⟨_, early⟩, ?_⟩
        rw [Timing.deadline_of_early early, Nat.max_eq_left h.begun, ← (h.unseen unseen).1,
          later?_eq_some room, h.waits.limits_eq]
      late := fun expired => by
        rw [show j.expired = true from expired] at going
        cases going }

/-- A turn of a join that is on course keeps it there, whichever case of `Join.Turned` it is. -/
theorem turn (h : OnCourse timing request round start j t)
    (onTime : OnTime timing request round t) (untied : timing.Untied request start)
    (turned : t.turn? request round (some j) = some (j', stop)) :
    OnCourse timing request round start j' (t.abort round stop) := by
  cases Join.turned_of_turn turned with
  | done => exact h
  | ended waiting ended => exact h.takeOver onTime untied waiting ended
  | late waiting unended late => exact h.giveUp onTime waiting unended late
  | seen _ _ going before cancelled unseen room =>
    exact h.see onTime going before cancelled unseen room
  | idle => exact h

/-- The first turn of a join puts it on course: its deadline is taken from `t.clock`. -/
theorem first (onTime : OnTime timing request round t) (untied : timing.Untied request t.clock)
    (kept : Kept request.targets.length round 0 t.inner)
    (turned : t.turn? request round none = some (j, stop)) :
    OnCourse timing request round t.clock j (t.abort round stop) := by
  have waits := Stage.waits_turn (fun _ => kept) (fun _ none => absurd none.symm (by simp)) turned
  obtain ⟨j', started, same⟩ := Option.map_eq_some_iff.1 turned
  cases same
  obtain ⟨-, settled, -, aborted⟩ := fields_of_start started
  obtain ⟨seen, unexpired, deadline⟩ := Join.start?_eq_some started
  exact
    { waits
      begun := Nat.le_refl _
      le_finish := Timing.start_le_finish
      unseen := fun unseen => by
        rw [unseen] at seen
        rw [← seen] at deadline
        exact ⟨deadline, onTime.unheeded seen.symm⟩
      seen := fun sees => by
        rw [sees] at seen
        rw [← seen, if_pos rfl] at deadline
        obtain ⟨c, heeded, le⟩ := onTime.heeded seen.symm
        -- The run was cancelled before the calls were made, and the deadline is that of the grace
        -- period.
        have early : c ∈ timing.early request t.clock :=
          Timing.mem_early.2 ⟨heeded, untied.lt_limit heeded le⟩
        refine ⟨Option.isSome_iff_exists.2 ⟨c, early⟩, ?_⟩
        rw [Timing.deadline_of_early early, Nat.max_eq_right le]
        exact deadline
      settled := by
        rw [settled]
        exact List.nil_prefix
      asked := fun i hi => by
        rw [aborted] at hi
        cases hi
      late := fun expired => by
        rw [unexpired] at expired
        cases expired
      ended := fun _ i hi => by
        rw [settled] at hi
        cases hi }

/-- A join that is on course and returns has the outcomes of its `timing`, at the instant
`timing.finish`. -/
theorem returns (h : OnCourse timing request round start j t) {outcomes : List CallOutcome}
    (returned : j.outcomes? (t.inner.isOver round) = some outcomes) :
    outcomes = timing.outcomes request start ∧ t.clock = timing.finish request start := by
  obtain ⟨length, -, -⟩ := h.waits.outcomes returned
  obtain ⟨-, same⟩ := Option.ite_none_right_eq_some.1 returned
  obtain rfl := Option.some.inj same
  refine ⟨h.settled.eq_of_length (length.trans Timing.length_outcomes.symm), ?_⟩
  refine Nat.le_antisymm h.le_finish ?_
  cases expired : j.expired with
  | true =>
    rw [(h.late expired).1]
    exact Nat.min_le_left ..
  | false =>
    have ended := h.ended expired
    rw [length] at ended
    exact Timing.finish_le h.begun ended

end OnCourse
end Schedule
end Vigil
