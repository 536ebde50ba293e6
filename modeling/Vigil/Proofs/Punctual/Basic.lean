import Vigil.Proofs.Schedule.Join

/-!
# Joins in virtual time

In virtual time everything that is due at an instant happens before time goes on, and time only
passes while a join waits for a call. What is fixed in advance is when each call ends by itself and
when the run is cancelled. At one instant things may still go on in any order, and a join may be
polled at any moment.

The outcome of a call then follows from when it ends and from one instant that is the same for all
calls: the end of the phase's limit or, after an earlier cancellation, the end of the grace period.

The module introduces:

* `Timing`, when the calls of a phase end and when the run is cancelled;
* `Timing.deadline`, `Timing.outcomes` and `Timing.finish`, what a join is to make of them;
* `Timing.Punctual`, the schedules in virtual time;
* `Stage.advances`, how many turns of a join under a schedule get on.
-/

namespace Vigil.Schedule

/-- What is fixed in advance of the calls of a phase: when each of them ends unless it is stopped,
and when the run is cancelled. Instants are milliseconds on the clock of the run. -/
structure Timing where
  /-- When and how the call on each observer ends, in the order of `request.targets`, unless it
  never does. -/
  ends : Nat → Option (Nat × Ending)
  /-- When the run is cancelled, if it ever is. -/
  cancel : Option Nat

namespace Timing

/-! ## The specification -/

/-- The end of the limit of a phase that begins at the instant `start`. A limit that is no whole
number of milliseconds is rounded up, as the timers of the host do. -/
def limit (request : JoinRequest) (start : Nat) : Nat := start + request.limits.timeout.millisUp

section Specification

variable (timing : Timing) (request : JoinRequest) (start : Nat)

/-- The cancellation that the calls of `request` are told of. No cancellation reaches a cleanup. -/
def heeded : Option Nat := if request.call.phase = .cleanup then none else timing.cancel

/-- The cancellation that moves the deadline: one that comes before the end of the `limit`. -/
def early : Option Nat :=
  (timing.heeded request).filter fun instant => decide (instant < limit request start)

/-- The instant at which all calls that have not ended are given up: the end of the `limit` or,
after an `early` cancellation, the end of the grace period. That period does not begin before the
phase does, and it never extends the limit. -/
def deadline : Nat :=
  match timing.early request start with
  | some instant =>
    min (limit request start) (max instant start + request.limits.grace.millisUp)
  | none => limit request start

/-- The outcome of every call that is given up at the `deadline`: abandoned after an `early`
cancellation, and timed out with the limit otherwise. -/
def missed : CallOutcome :=
  if (timing.early request start).isSome then .abandoned else .timedOut request.limits.timeout

/-- The outcome of a call by when and how it ends: its own if it ends before the `deadline`, and
`missed` otherwise. -/
def outcome : Option (Nat × Ending) → CallOutcome
  | some (instant, e) =>
    if instant < timing.deadline request start then e.outcome else timing.missed request start
  | none => timing.missed request start

/-- The outcomes of all calls, in the order of the observers: the specification of what `Stage.join`
returns. -/
def outcomes : List CallOutcome :=
  (List.range request.targets.length).map fun i => timing.outcome request start (timing.ends i)

/-- The instant at which the last call ends. A call that never does is counted up to the
`deadline`. -/
def last : Nat :=
  let deadline := timing.deadline request start
  (List.range request.targets.length).foldr
    (fun i latest => max ((timing.ends i).elim deadline Prod.fst) latest) start

/-- The instant at which the join returns: once the `last` call has ended, or at the `deadline` if
that is earlier. -/
def finish : Nat := min (timing.deadline request start) (timing.last request start)

end Specification

section Specification

variable {timing : Timing} {request : JoinRequest} {start : Nat}

theorem mem_heeded {instant : Nat} :
    instant ∈ timing.heeded request ↔
      request.call.phase ≠ .cleanup ∧ instant ∈ timing.cancel := by
  unfold heeded
  split
  · next cleanup => simp [cleanup]
  · next working => simp [working]

theorem mem_early {instant : Nat} :
    instant ∈ timing.early request start ↔
      instant ∈ timing.heeded request ∧ instant < limit request start := by
  simp [early, Option.mem_def, Option.filter_eq_some_iff]

theorem early_eq_none (late : ∀ c ∈ timing.heeded request, limit request start ≤ c) :
    timing.early request start = none := by
  refine Option.eq_none_iff_forall_not_mem.2 fun c hc => ?_
  obtain ⟨heeded, early⟩ := mem_early.1 hc
  exact Nat.not_lt_of_le (late c heeded) early

theorem deadline_of_early {instant : Nat} (early : instant ∈ timing.early request start) :
    timing.deadline request start =
      min (limit request start) (max instant start + request.limits.grace.millisUp) := by
  rw [deadline, Option.mem_def.1 early]

theorem deadline_of_late (late : timing.early request start = none) :
    timing.deadline request start = limit request start := by
  rw [deadline, late]

/-- As long as no cancellation has come, the deadline is not over before the end of the `limit`. -/
theorem le_deadline {instant : Nat} (limit_le : instant ≤ limit request start)
    (going : ∀ c ∈ timing.heeded request, instant ≤ max c start) :
    instant ≤ timing.deadline request start := by
  unfold deadline
  split
  · next c early =>
    refine Nat.le_min.2 ⟨limit_le, Nat.le_trans (going c ?_) (Nat.le_add_right ..)⟩
    exact (mem_early.1 early).1
  · exact limit_le

theorem start_le_deadline : start ≤ timing.deadline request start :=
  le_deadline (Nat.le_add_right ..) fun c _ => Nat.le_max_right c start

theorem outcome_of_lt {instant : Nat} (e : Ending)
    (lt : instant < timing.deadline request start) :
    timing.outcome request start (some (instant, e)) = e.outcome := if_pos lt

theorem outcome_of_le {ended : Option (Nat × Ending)}
    (le : ∀ p ∈ ended, timing.deadline request start ≤ p.1) :
    timing.outcome request start ended = timing.missed request start := by
  match ended with
  | none => rfl
  | some (instant, e) => exact if_neg (Nat.not_lt_of_le (le _ rfl))

/-- The outcome of a call depends on no other call: two timings with the same limits and the same
`heeded` cancellation agree on it. -/
theorem outcome_congr {timing' : Timing} {request' : JoinRequest}
    (limits : request'.limits = request.limits)
    (heeded : timing'.heeded request' = timing.heeded request) :
    timing'.outcome request' start = timing.outcome request start := by
  have limit : limit request' start = limit request start := by
    rw [Timing.limit, limits, Timing.limit]
  have early : timing'.early request' start = timing.early request start := by
    rw [Timing.early, heeded, limit, Timing.early]
  have deadline : timing'.deadline request' start = timing.deadline request start := by
    rw [Timing.deadline, early, limit, limits, Timing.deadline]
  have missed : timing'.missed request' start = timing.missed request start := by
    rw [Timing.missed, early, limits, Timing.missed]
  funext ended
  match ended with
  | none => exact missed
  | some (instant, e) => rw [outcome, deadline, missed, outcome]

@[simp]
theorem length_outcomes :
    (timing.outcomes request start).length = request.targets.length := by
  simp [outcomes]

theorem getElem?_outcomes {i : Nat} (lt : i < request.targets.length) :
    (timing.outcomes request start)[i]? =
      some (timing.outcome request start (timing.ends i)) := by
  simp [outcomes, lt]

theorem foldr_max_le_iff {calls : List Nat} {f : Nat → Nat} {bound : Nat} :
    calls.foldr (fun i latest => max (f i) latest) start ≤ bound ↔
      start ≤ bound ∧ ∀ i ∈ calls, f i ≤ bound := by
  induction calls with
  | nil => simp
  | cons i calls ih =>
    rw [List.foldr_cons, Nat.max_le, ih, List.forall_mem_cons]
    exact and_left_comm

theorem last_le_iff {bound : Nat} :
    timing.last request start ≤ bound ↔ start ≤ bound ∧
      ∀ i < request.targets.length,
        (timing.ends i).elim (timing.deadline request start) Prod.fst ≤ bound := by
  simp only [last, foldr_max_le_iff, List.mem_range]

theorem start_le_finish : start ≤ timing.finish request start :=
  Nat.le_min.2 ⟨start_le_deadline, (last_le_iff.1 (Nat.le_refl _)).1⟩

theorem le_finish {instant i : Nat} (lt : i < request.targets.length)
    (deadline_le : instant ≤ timing.deadline request start)
    (ends_le : ∀ p ∈ timing.ends i, instant ≤ p.1) : instant ≤ timing.finish request start := by
  refine Nat.le_min.2 ⟨deadline_le, ?_⟩
  refine Nat.le_trans ?_ ((last_le_iff.1 (Nat.le_refl (timing.last request start))).2 i lt)
  match ends : timing.ends i with
  | none => exact deadline_le
  | some p => exact ends_le p ends

theorem finish_le {instant : Nat} (start_le : start ≤ instant)
    (ended : ∀ i < request.targets.length, ∃ p ∈ timing.ends i, p.1 ≤ instant) :
    timing.finish request start ≤ instant := by
  refine Nat.le_trans (Nat.min_le_right ..) (last_le_iff.2 ⟨start_le, fun i lt => ?_⟩)
  obtain ⟨p, ends, le⟩ := ended i lt
  rw [Option.mem_def.1 ends]
  exact le

end Specification

/-- The `timing` leaves no doubt about what a join is to make of it: nothing that decides an outcome
happens at the very instant that decides it. -/
structure Untied (timing : Timing) (request : JoinRequest) (start : Nat) : Prop where
  /-- No call ends right at the deadline. -/
  ends : ∀ i < request.targets.length, ∀ p ∈ timing.ends i,
    p.1 ≠ timing.deadline request start
  /-- A phase without any time is not cancelled at the instant of its beginning. -/
  cancel : start ∈ timing.heeded request → start < limit request start

theorem Untied.lt_limit {timing : Timing} {request : JoinRequest} {start c : Nat}
    (untied : timing.Untied request start) (heeded : c ∈ timing.heeded request) (le : c ≤ start) :
    c < limit request start := by
  rcases Nat.lt_or_eq_of_le le with lt | rfl
  · exact Nat.lt_of_lt_of_le lt (Nat.le_add_right ..)
  · exact untied.cancel heeded

/-! ## Schedules in virtual time -/

/-- What may go on at the instant `clock` beside the calls of `round`. A call ends when it is due,
and a cancellation comes no earlier than it is; time itself does not pass. -/
def Due (timing : Timing) (round clock : Nat) : Move → Prop
  | .finish r i e => r = round → timing.ends i = some (clock, e)
  | .cancelRun => ∃ c ∈ timing.cancel, c ≤ clock
  | .elapse _ => False
  | _ => True

/-- Time may pass up to `instant`: the join waits for a call, and neither an end nor a cancellation
nor a deadline is due before. -/
structure MayPass (timing : Timing) (request : JoinRequest) (round : Nat) (j : Option Join)
    (t : Stage) (instant : Nat) : Prop where
  /-- A turn changes nothing, and the deadline of the join is not missed. -/
  waits : ∃ i, j = some i ∧ i.isDone = false ∧ t.turn? request round j = some (i, none) ∧
    instant ≤ i.deadline
  /-- No call that goes on misses its end. -/
  calls : ∀ i < request.targets.length, t.inner.isOver round i = false →
    ∀ p ∈ timing.ends i, instant ≤ p.1
  /-- The cancellation is not missed. -/
  cancel : t.controls.runCancelled = false → ∀ c ∈ timing.cancel, instant ≤ c

/-- What may go on beside a join in virtual time: time passes if it may, and all else happens when
it is due. -/
def Allows (timing : Timing) (request : JoinRequest) (round : Nat) (j : Option Join) (t : Stage) :
    Move → Prop
  | .elapse millis => timing.MayPass request round j t (t.clock + millis)
  | m => timing.Due round t.clock m

/-- A schedule under which a join is in virtual time until it returns: every move between its turns
is one that `Allows` permits. -/
def Punctual (timing : Timing) (request : JoinRequest) (round : Nat) :
    List Slot → Option Join → Stage → Prop
  | [], _, _ => True
  | .beside m :: slots, j, t =>
    timing.Allows request round j t m ∧ timing.Punctual request round slots j (t.move m)
  | .run :: slots, j, t =>
    match j.bind (Join.outcomes? (t.inner.isOver round)) with
    | some _ => True
    | none =>
      match t.turn? request round j with
      | none => True
      | some (j, stop) => timing.Punctual request round slots (some j) (t.abort round stop)

end Timing

/-- How many turns of a join under a schedule get on: the first one, and those that change the join.
A turn that only finds that there is nothing to do is not counted. -/
def Stage.advances (request : JoinRequest) (round : Nat) :
    List Slot → Option Join → Stage → Nat
  | [], _, _ => 0
  | .beside m :: slots, j, t => advances request round slots j (t.move m)
  | .run :: slots, j, t =>
    match j.bind (Join.outcomes? (t.inner.isOver round)) with
    | some _ => 0
    | none =>
      match t.turn? request round j with
      | none => 0
      | some (j', stop) =>
        (if j = some j' then 0 else 1) + advances request round slots (some j') (t.abort round stop)

end Vigil.Schedule
