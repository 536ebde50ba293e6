import Vigil.Proofs.Schedule.Drift

/-!
# Joining a round

Under every schedule the join of a round returns only when every task of the round is over, and then
it returns one outcome for each task: how the task ended, unless the join asked it to stop.

The module introduces:

* `Join.Turned`, what a turn of the loop over the calls does;
* `Accounts`, when an outcome accounts for a task;
* `Waits`, the invariant of the loop over the calls;
* `Joined`, what the join of a round has done when it returns or stands still.
-/

namespace Vigil

namespace Join

variable {origin now : Nat} {cancelled : Bool} {ending? : Nat → Option Ending} {j j' : Join}

/-- What a turn makes of the join `j`, and which call it asks to stop. The cases are those of
`Join.turn`, each with what is known of the first call that is awaited. -/
inductive Turned (origin now : Nat) (cancelled : Bool) (ending? : Nat → Option Ending) (j : Join) :
    Join → Option Nat → Prop
  /-- No call is awaited any more. -/
  | done (waiting : j.waiting = []) : Turned origin now cancelled ending? j j none
  /-- The first call that is awaited has ended. -/
  | ended {call : Nat} {rest : List Nat} {e : Ending} (waiting : j.waiting = call :: rest)
    (ended : ending? call = some e) : Turned origin now cancelled ending? j (j.takeOver e rest) none
  /-- It has not, and the deadline is over. -/
  | late {call : Nat} {rest : List Nat} (waiting : j.waiting = call :: rest)
    (unended : ending? call = none) (late : j.expired = true ∨ j.deadline ≤ now) :
    Turned origin now cancelled ending? j (j.giveUp call rest) (some call)
  /-- A cancellation is seen. -/
  | seen {call : Nat} {rest : List Nat} {moved : Nat} (waiting : j.waiting = call :: rest)
    (unended : ending? call = none) (going : j.expired = false) (early : now < j.deadline)
    (cancelled_eq : cancelled = true) (unseen : j.cancelSeen = false)
    (room : later? origin now j.limits.grace = some moved) :
    Turned origin now cancelled ending? j
      { j with deadline := min j.deadline moved, cancelSeen := true } none
  /-- There is nothing to do but to wait. -/
  | idle {call : Nat} {rest : List Nat} (waiting : j.waiting = call :: rest)
    (unended : ending? call = none) (going : j.expired = false) (early : now < j.deadline)
    (quiet : cancelled = true → j.cancelSeen = true) : Turned origin now cancelled ending? j j none

theorem turned_of_turn {stop : Option Nat}
    (h : j.turn origin now cancelled ending? = some (j', stop)) :
    Turned origin now cancelled ending? j j' stop := by
  unfold turn at h
  split at h
  · next waiting =>
    cases h
    exact .done waiting
  · next call rest waiting =>
    split at h
    · next e ended =>
      cases h
      exact .ended waiting ended
    · next unended =>
      -- Only a first call that has not ended leaves it to the deadline.
      split at h
      · next late =>
        cases h
        exact .late waiting unended (by simpa using late)
      · next early =>
        simp only [Bool.or_eq_true, decide_eq_true_eq, not_or, Bool.not_eq_true,
          Nat.not_le] at early
        split at h
        · next sees =>
          simp only [Bool.and_eq_true, Bool.not_eq_true'] at sees
          obtain ⟨seen, moves, same⟩ := Option.map_eq_some_iff.1 h
          cases same
          obtain ⟨moved, room, same⟩ := Option.bind_eq_some_iff.1 moves
          cases same
          exact .seen waiting unended early.1 early.2 sees.1 sees.2 room
        · next quiet =>
          cases h
          exact .idle waiting unended early.1 early.2 (by simpa using quiet)

end Join

namespace Schedule

/-- The outcome `o` is what a join makes of the task `t` under `limits`: its own `Ending`, or that
of a call that was given up. -/
inductive Accounts (limits : JoinLimits) (t : Task) : CallOutcome → Prop
  | ended (e : Ending) (status : t.status = .ended e) (kept : t.aborted = false) :
    Accounts limits t e.outcome
  | timedOut (aborted : t.aborted = true) : Accounts limits t (.timedOut limits.timeout)
  | abandoned (aborted : t.aborted = true) : Accounts limits t .abandoned

theorem Accounts.later {limits : JoinLimits} {t u : Task} {o : CallOutcome}
    (h : Accounts limits t o) (later : t.Later u) : Accounts limits u o := by
  cases h with
  | ended e status kept =>
    have same : u = t := later.done (by simp [Task.isOver, status])
    rw [same]
    exact .ended e status kept
  | timedOut aborted => exact .timedOut (later.aborted aborted)
  | abandoned aborted => exact .abandoned (later.aborted aborted)

/-- The outcome of a call that is given up accounts for a task that was asked to stop. -/
theorem accounts_stopped (j : Join) {t : Task} (aborted : t.aborted = true) :
    Accounts j.limits t j.stopped := by
  unfold Join.stopped
  split
  · exact .abandoned aborted
  · exact .timedOut aborted

/-- The first `outcomes.length` tasks of `round` have outcomes that account for them. -/
def AccountsFor (limits : JoinLimits) (w : World) (round : Nat) (outcomes : List CallOutcome) :
    Prop :=
  ∀ i o, outcomes[i]? = some o → ∃ t, w.task? round i = some t ∧ Accounts limits t o

theorem AccountsFor.later {limits : JoinLimits} {w v : World} {round : Nat}
    {outcomes : List CallOutcome} (h : AccountsFor limits w round outcomes)
    (keeps : World.Keeps w v) : AccountsFor limits v round outcomes := by
  intro i o ho
  obtain ⟨t, ht, haccounts⟩ := h i o ho
  obtain ⟨u, hu, later⟩ := keeps round i t ht
  exact ⟨u, hu, haccounts.later later⟩

theorem AccountsFor.concat {limits : JoinLimits} {w : World} {round : Nat}
    {outcomes : List CallOutcome} {o : CallOutcome} {t : Task}
    (h : AccountsFor limits w round outcomes) (ht : w.task? round outcomes.length = some t)
    (haccounts : Accounts limits t o) : AccountsFor limits w round (outcomes ++ [o]) := by
  intro i o' ho'
  -- The last outcome is the one of `t`; those before it are accounted for already.
  rcases Nat.lt_trichotomy i outcomes.length with hi | hi | hi
  · exact h i o' (by rwa [List.getElem?_append_left hi] at ho')
  · subst hi
    obtain rfl : o = o' := by simpa using ho'
    exact ⟨t, ht, haccounts⟩
  · rw [List.getElem?_eq_none (by simp; omega)] at ho'
    cases ho'

/-- The tasks of `round`, of which there are `size`, are there from the position `start` on, and
none of them was asked to stop. -/
structure Kept (size round start : Nat) (w : World) : Prop where
  /-- There is a task for each position. -/
  present : ∀ i < size, ∃ t, w.task? round i = some t
  /-- Nobody has asked a task to stop. -/
  aborted : ∀ i t, start ≤ i → w.task? round i = some t → t.aborted = false
  /-- No task has stopped. -/
  stopped : ∀ i t, start ≤ i → w.task? round i = some t → t.status ≠ .stopped

namespace Kept

variable {size round start : Nat} {w v : World}

theorem moved (h : Kept size round start w) (evolves : World.Evolves Task.Moved w v) :
    Kept size round start v where
  present i hi := by
    obtain ⟨t, ht⟩ := h.present i hi
    obtain ⟨u, hu, -⟩ := evolves.later ht
    exact ⟨u, hu⟩
  aborted i u hi hu := by
    obtain ⟨t, ht, m⟩ := evolves.earlier hu
    rw [m.aborted_eq]
    exact h.aborted i t hi ht
  stopped i u hi hu status := by
    obtain ⟨t, ht, m⟩ := evolves.earlier hu
    exact h.stopped i t hi ht (m.stopped (h.aborted i t hi ht) status)

theorem mono {later : Nat} (h : Kept size round start w) (le : start ≤ later) :
    Kept size round later w where
  present := h.present
  aborted i t hi := h.aborted i t (Nat.le_trans le hi)
  stopped i t hi := h.stopped i t (Nat.le_trans le hi)

theorem abort {i : Nat} (h : Kept size round start w) (lt : i < start) :
    Kept size round start (w.change round i Task.abort) := by
  -- The task that is asked to stop comes before all of these.
  have same : ∀ k, start ≤ k →
      (w.change round i Task.abort).task? round k = w.task? round k := by
    intro k hk
    rw [World.task?_change]
    cases w.task? round k with
    | none => rfl
    | some t => simp [show i ≠ k by omega]
  refine ⟨fun k hk => ?_, fun k t hk => ?_, fun k t hk => ?_⟩
  · obtain ⟨t, ht⟩ := h.present k hk
    exact ⟨_, by rw [World.task?_change, ht]; rfl⟩
  · rw [same k hk]
    exact h.aborted k t hk
  · rw [same k hk]
    exact h.stopped k t hk

end Kept

theorem fields_of_start {limits : JoinLimits} {origin now : Nat} {cancelled : Bool}
    {calls : List Nat} {j : Join} (h : Join.start? origin limits now cancelled calls = some j) :
    j.limits = limits ∧ j.settled = [] ∧ j.waiting = calls ∧ j.aborted = [] := by
  simp only [Join.start?, Option.bind_eq_bind] at h
  obtain ⟨deadline, -, h⟩ := Option.bind_eq_some_iff.1 h
  split at h
  · obtain ⟨moved, -, h⟩ := Option.bind_eq_some_iff.1 h
    cases h
    exact ⟨rfl, rfl, rfl, rfl⟩
  · cases h
    exact ⟨rfl, rfl, rfl, rfl⟩

/-- The calls that are awaited are those from the position `start` on, so the first of them is the
one at that position. -/
theorem range'_eq_cons {start size call : Nat} {rest : List Nat}
    (h : List.range' start (size - start) = call :: rest) :
    call = start ∧ start < size ∧ rest = List.range' (start + 1) (size - (start + 1)) := by
  have lt : start < size := by
    refine Nat.lt_of_not_le fun ge => ?_
    rw [Nat.sub_eq_zero_of_le ge] at h
    cases h
  rw [show size - start = size - (start + 1) + 1 by omega, List.range'_succ] at h
  obtain ⟨first, others⟩ := List.cons.inj h
  exact ⟨first.symm, lt, others.symm⟩

/-- The invariant of the loop over the calls of `round`: the first `j.settled.length` of its `size`
tasks have outcomes, and the others are still awaited in their order. -/
structure Waits (limits : JoinLimits) (size round : Nat) (w : World) (j : Join) : Prop where
  limits_eq : j.limits = limits
  /-- No task has more than one outcome. -/
  le_size : j.settled.length ≤ size
  /-- The tasks without an outcome are awaited in their order. -/
  waiting : j.waiting = List.range' j.settled.length (size - j.settled.length)
  /-- The outcomes account for their tasks. -/
  accounts : AccountsFor limits w round j.settled
  /-- A task with an outcome is over or was asked to stop. -/
  done : ∀ i < j.settled.length, w.isOver round i = true ∨ i ∈ j.aborted
  /-- The tasks without an outcome were not asked to stop. -/
  kept : Kept size round j.settled.length w

namespace Waits

variable {limits : JoinLimits} {size round : Nat} {w v : World} {j : Join}

theorem start {origin now : Nat} {cancelled : Bool} (kept : Kept size round 0 w)
    (h : Join.start? origin limits now cancelled (List.range size) = some j) :
    Waits limits size round w j := by
  obtain ⟨limits_eq, settled, waiting, -⟩ := fields_of_start h
  exact
    { limits_eq
      le_size := by simp [settled]
      waiting := by rw [waiting, settled, List.range_eq_range']; rfl
      accounts := by simp [AccountsFor, settled]
      done := by simp [settled]
      kept := by rw [settled]; exact kept }

/-- What goes on beside the run leaves the loop where it is, as no task is asked to stop. -/
theorem moved (h : Waits limits size round w j) (evolves : World.Evolves Task.Moved w v) :
    Waits limits size round v j where
  limits_eq := h.limits_eq
  le_size := h.le_size
  waiting := h.waiting
  accounts := h.accounts.later (evolves.mono fun _ _ m => m.toLater).keeps
  done i hi := (h.done i hi).imp_left (evolves.mono fun _ _ m => m.toLater).keeps.isOver
  kept := h.kept.moved evolves

/-- The end of the first call that is awaited is taken over, and the loop has one more outcome that
accounts for its task. -/
theorem takeOver (h : Waits limits size round w j) {call : Nat} {rest : List Nat} {e : Ending}
    (hw : j.waiting = call :: rest) (he : w.ending? round call = some e) :
    Waits limits size round w (j.takeOver e rest) := by
  -- Calls are awaited in their order, so this one has the number of those that are settled.
  obtain ⟨hcall, hlt, hrest⟩ := range'_eq_cons (h.waiting.symm.trans hw)
  subst hcall
  obtain ⟨t, ht, hte⟩ := Option.bind_eq_some_iff.1 he
  have status : t.status = .ended e := by
    unfold Task.ending? at hte
    split at hte
    · next e' he' => rw [he', Option.some.inj hte]
    · cases hte
  have length : (j.takeOver e rest).settled.length = j.settled.length + 1 := by
    simp [Join.takeOver]
  exact
    { limits_eq := h.limits_eq
      le_size := by rw [length]; exact hlt
      waiting := by rw [length]; exact hrest
      accounts :=
        h.accounts.concat ht (.ended e status (h.kept.aborted _ t (Nat.le_refl _) ht))
      done := by
        intro i hi
        rw [length] at hi
        rcases Nat.lt_succ_iff_lt_or_eq.1 hi with hi | rfl
        · exact h.done i hi
        · exact .inl (by simp [World.isOver, ht, Task.isOver, status])
      kept := by rw [length]; exact h.kept.mono (Nat.le_succ _) }

theorem live (h : Waits limits size round w j) {call : Nat} {rest : List Nat}
    (hw : j.waiting = call :: rest) (he : w.ending? round call = none) :
    ∃ t, w.task? round call = some t ∧ t.isOver = false := by
  obtain ⟨rfl, hlt, -⟩ := range'_eq_cons (h.waiting.symm.trans hw)
  obtain ⟨t, ht⟩ := h.kept.present _ hlt
  refine ⟨t, ht, ?_⟩
  have going := h.kept.stopped _ t (Nat.le_refl _) ht
  have unended : t.ending? = none := by simpa [World.ending?, ht] using he
  unfold Task.ending? at unended
  unfold Task.isOver
  split <;> simp_all

/-- The first call that is awaited is given up: it is asked to stop, and its outcome is the one that
`accounts_stopped` explains. -/
theorem giveUp (h : Waits limits size round w j) {call : Nat} {rest : List Nat}
    (hw : j.waiting = call :: rest) (he : w.ending? round call = none) :
    Waits limits size round (w.change round call Task.abort) (j.giveUp call rest) := by
  obtain ⟨t, ht, live⟩ := h.live hw he
  obtain ⟨hcall, hlt, hrest⟩ := range'_eq_cons (h.waiting.symm.trans hw)
  subst hcall
  have later : World.Keeps w (w.change round j.settled.length Task.abort) :=
    (World.evolves_change Task.Later.refl Task.later_abort w round _).keeps
  -- The task was live, so it is asked to stop and will do so.
  have ht' : (w.change round j.settled.length Task.abort).task? round j.settled.length
      = some { t with aborted := true } := by
    simp [World.task?_change, ht, Task.abort, live]
  have length : (j.giveUp j.settled.length rest).settled.length = j.settled.length + 1 := by
    simp [Join.giveUp]
  exact
    { limits_eq := h.limits_eq
      le_size := by rw [length]; exact hlt
      waiting := by rw [length]; exact hrest
      accounts := by
        refine (h.accounts.later later).concat ht' ?_
        rw [← h.limits_eq]
        exact accounts_stopped j rfl
      done := by
        intro i hi
        rw [length] at hi
        rcases Nat.lt_succ_iff_lt_or_eq.1 hi with hi | rfl
        · exact (h.done i hi).imp later.isOver (List.mem_append_left _)
        · exact .inr (List.mem_append_right _ (by simp))
      kept := by rw [length]; exact (h.kept.mono (Nat.le_succ _)).abort (Nat.lt_succ_self _) }

/-- One turn of the loop over the calls keeps its invariant, whichever case of `Turned` it is. -/
theorem turn {s : Stage} (h : Waits limits size round s.inner j) {origin now : Nat}
    {cancelled : Bool}
    {j' : Join} {stop : Option Nat}
    (hj : j.turn origin now cancelled (s.inner.ending? round) = some (j', stop)) :
    Waits limits size round (s.abort round stop).inner j' := by
  cases Join.turned_of_turn hj with
  | done => exact h
  | ended waiting ended => exact h.takeOver waiting ended
  | late waiting unended => exact h.giveUp waiting unended
  | seen => exact ⟨h.limits_eq, h.le_size, h.waiting, h.accounts, h.done, h.kept⟩
  | idle => exact h

/-- Once `Join.outcomes?` has something, every task is over and has an outcome that accounts for
it. -/
theorem outcomes (h : Waits limits size round w j) {outcomes : List CallOutcome}
    (hj : j.outcomes? (w.isOver round) = some outcomes) :
    outcomes.length = size ∧ AccountsFor limits w round outcomes ∧
      ∀ i < size, w.isOver round i = true := by
  simp only [Join.outcomes?, Join.isDone, Option.ite_none_right_eq_some, Bool.and_eq_true,
    List.isEmpty_iff, List.all_eq_true, Option.some.injEq] at hj
  obtain ⟨⟨done, stopped⟩, rfl⟩ := hj
  -- No call is awaited any more, so all of them have outcomes.
  have length : j.settled.length = size := by
    have none := h.waiting.symm.trans done
    rw [List.range'_eq_nil_iff] at none
    have := h.le_size
    omega
  refine ⟨length, h.accounts, fun i hi => ?_⟩
  rcases h.done i (by rwa [length]) with done | asked
  · exact done
  · exact stopped i asked

end Waits

/-! ## The join under a schedule -/

namespace Stage

theorem task?_enter_finish (s : Stage) {round observer : Nat} (e : Ending)
    (fresh : s.inner.task? round observer = some {}) (i : Nat) :
    ((s.move (.enter round observer)).move (.finish round observer e)).inner.task? round i =
      if i = observer then some { status := .ended e } else s.inner.task? round i := by
  simp only [move, updateWorld, World.task?_change]
  by_cases same : i = observer
  · subst same
    simp [fresh, Task.enter, Task.finish]
  · cases s.inner.task? round i with
    | none => simp [same]
    | some t => simp [same, Ne.symm same]

theorem await_turn (request : JoinRequest) (round : Nat) (slots : List Slot) {j : Option Join}
    (s : Stage) (waits : j.bind (Join.outcomes? (s.inner.isOver round)) = none) :
    await request round (.run :: slots) j s =
      match s.turn? request round j with
      | none => (none, s.stand .panicked slots)
      | some (j, stop) => await request round slots (some j) (s.abort round stop) := by
  cases turned : s.turn? request round j <;> simp only [await, waits, turned]

/-- Waiting for calls is a `Drift`, whatever the schedule is, by induction on its slots. -/
theorem await_drift (request : JoinRequest) (round : Nat) (slots : List Slot) (j : Option Join)
    (s : Stage) : Drift Task.Later s (await request round slots j s).2 := by
  induction slots generalizing j s with
  | nil => exact .stand Task.Later.refl s .joining []
  | cons slot slots ih =>
    cases slot with
    | beside m =>
      have first : Drift Task.Later s (s.move m) := (drift_move s m).mono fun _ _ h => h.toLater
      exact first.trans Task.Later.trans (ih j (s.move m))
    | run =>
      unfold await
      split
      · exact .stand Task.Later.refl s .free slots
      · split
        · exact .stand Task.Later.refl s .panicked slots
        · next j' stop _ => exact (drift_abort s round stop).trans Task.Later.trans (ih _ _)

/-- Waiting for calls keeps every `P` that is kept by all that goes on beside the run and by all
changes of the world that let no intervals in. -/
theorem await_invariant {P : Stage → Prop} (moves : ∀ s m, P s → P (s.move m))
    (worlds : ∀ (s : Stage) (w : World), w.accepted = s.inner.accepted → P s →
      P { s with inner := w })
    (request : JoinRequest) (round : Nat) (slots : List Slot) (j : Option Join) {s : Stage}
    (h : P s) : P (await request round slots j s).2 := by
  induction slots generalizing j s with
  | nil => exact worlds s _ rfl h
  | cons slot slots ih =>
    cases slot with
    | beside m => exact ih j (moves s m h)
    | run =>
      unfold await
      split
      · exact worlds s _ rfl h
      · split
        · exact worlds s _ rfl h
        · next j' stop _ =>
          -- Stopping a call changes the world only.
          refine ih (some j') ?_
          cases stop with
          | none => exact h
          | some observer => exact worlds s _ rfl h

theorem join_invariant {P : Stage → Prop} (moves : ∀ s m, P s → P (s.move m))
    (worlds : ∀ (s : Stage) (w : World), w.accepted = s.inner.accepted → P s →
      P { s with inner := w })
    (request : JoinRequest) {s : Stage} (h : P s) : P (s.join request).2 := by
  have spawned : P (s.spawn request) := worlds s _ rfl h
  have waited :=
    await_invariant moves worlds request s.inner.rounds.length s.inner.slots none spawned
  exact worlds _ _ rfl waited

theorem await_free (request : JoinRequest) (round : Nat) (slots : List Slot) (j : Option Join)
    (s : Stage) : (await request round slots j s).2.inner.standing = .free ↔
      (await request round slots j s).1.isSome = true := by
  induction slots generalizing j s with
  | nil => exact ⟨nofun, nofun⟩
  | cons slot slots ih =>
    cases slot with
    | beside m => exact ih j (s.move m)
    | run =>
      unfold await
      split
      · exact ⟨fun _ => rfl, fun _ => rfl⟩
      · split
        · exact ⟨nofun, nofun⟩
        · exact ih _ _

theorem waits_turn {request : JoinRequest} {round : Nat} {s : Stage} {j : Option Join}
    (kept : j = none → Kept request.targets.length round 0 s.inner)
    (waits : ∀ i ∈ j, Waits request.limits request.targets.length round s.inner i) {j' : Join}
    {stop : Option Nat} (h : s.turn? request round j = some (j', stop)) :
    Waits request.limits request.targets.length round (s.abort round stop).inner j' := by
  unfold turn? at h
  cases j with
  | none =>
    obtain ⟨j'', start, h⟩ := Option.map_eq_some_iff.1 h
    cases h
    exact .start (kept rfl) start
  | some j => exact (waits j rfl).turn h

/-- When `await` returns, every task of the round is over and has the outcome that accounts for it,
whatever the schedule was. -/
theorem await_outcomes (request : JoinRequest) (round : Nat) (slots : List Slot) (j : Option Join)
    (s : Stage) (kept : j = none → Kept request.targets.length round 0 s.inner)
    (waits : ∀ i ∈ j, Waits request.limits request.targets.length round s.inner i)
    {outcomes : List CallOutcome} (h : (await request round slots j s).1 = some outcomes) :
    outcomes.length = request.targets.length ∧
      AccountsFor request.limits (await request round slots j s).2.inner round outcomes ∧
      ∀ i < request.targets.length,
        (await request round slots j s).2.inner.isOver round i = true := by
  induction slots generalizing j s with
  | nil => cases h
  | cons slot slots ih =>
    cases slot with
    | beside m =>
      refine ih j (s.move m) (fun hj => ?_) (fun i hi => ?_) h
      · exact (kept hj).moved (drift_move s m).world
      · exact (waits i hi).moved (drift_move s m).world
    | run =>
      unfold await at h ⊢
      split at h
      · next outcomes' ready =>
        cases h
        -- The invariant says of a join that is done what is to be shown.
        obtain ⟨j, rfl, ready⟩ := Option.bind_eq_some_iff.1 ready
        exact (waits j rfl).outcomes ready
      · split at h
        · cases h
        · next j' stop turned =>
          refine ih (some j') (s.abort round stop) nofun (fun i hi => ?_) h
          cases hi
          exact waits_turn kept waits turned

end Stage

/-- What the join of a new round has done to the scene `s` when it returns or stands still.
Everything that later modules use of `Stage.join` is read off from it. -/
structure Joined (request : JoinRequest) (s : Stage) (outcomes : Option (List CallOutcome))
    (s' : Stage) : Prop where
  /-- The round was added with its outcomes. -/
  ledger : s'.inner.ledger = s.inner.ledger ++ [(request, outcomes)]
  earlier : World.Keeps s.inner s'.inner
  origin : s'.origin = s.origin
  started : s'.started = s.started
  emitted : s'.emitted = s.emitted
  closed : s'.recorder.closed = s.recorder.closed
  /-- Intervals were added to those that wait in the recorder. -/
  recorded : ∃ new, s'.recorder.queue = s.recorder.queue ++ new ∧
    s'.inner.accepted = s.inner.accepted ++ new
  free : s'.inner.standing = .free ↔ outcomes.isSome = true
  /-- Every task has one outcome, which accounts for it, and is over. -/
  settled : ∀ os, outcomes = some os → os.length = request.targets.length ∧
    AccountsFor request.limits s'.inner s.inner.rounds.length os ∧
    ∀ i < request.targets.length, s'.inner.isOver s.inner.rounds.length i = true

namespace Stage

theorem task?_spawn (request : JoinRequest) (s : Stage) {n : Nat} (i : Nat)
    (hn : n ≠ s.inner.rounds.length) : (s.spawn request).inner.task? n i = s.inner.task? n i := by
  simp only [World.task?, spawn, updateWorld, List.getElem?_append]
  split
  · rfl
  · rw [List.getElem?_eq_none (by simp; omega), List.getElem?_eq_none (by omega)]

/-- The tasks of a new round are fresh, and there is one for each observer that is called. -/
theorem task?_spawn_new (request : JoinRequest) (s : Stage) (i : Nat) :
    (s.spawn request).inner.task? s.inner.rounds.length i =
      request.targets[i]?.map fun _ => {} := by
  have round : (s.spawn request).inner.rounds[s.inner.rounds.length]? = some { request } :=
    List.getElem?_concat_length
  rw [World.task?, round]
  exact List.getElem?_map

theorem kept_spawn (request : JoinRequest) (s : Stage) :
    Kept request.targets.length s.inner.rounds.length 0 (s.spawn request).inner := by
  refine ⟨fun i hi => ⟨{}, by simp [task?_spawn_new, hi]⟩, fun i t _ ht => ?_, fun i t _ ht => ?_⟩
  · rw [task?_spawn_new, Option.map_eq_some_iff] at ht
    obtain ⟨-, -, rfl⟩ := ht
    rfl
  · rw [task?_spawn_new, Option.map_eq_some_iff] at ht
    obtain ⟨-, -, rfl⟩ := ht
    decide

theorem task?_note (round : Nat) (outcomes : Option (List CallOutcome)) (s : Stage) (n i : Nat) :
    (s.note round outcomes).inner.task? n i = s.inner.task? n i := by
  simp only [World.task?, note, updateWorld, List.getElem?_modify]
  cases s.inner.rounds[n]? with
  | none => rfl
  | some r => by_cases hn : round = n <;> simp [hn]

theorem ledger_note (round : Nat) (outcomes : Option (List CallOutcome)) (s : Stage) :
    (s.note round outcomes).inner.ledger =
      s.inner.ledger.modify round fun e => (e.1, outcomes) := by
  refine List.ext_getElem? fun n => ?_
  simp only [World.ledger, note, updateWorld, List.getElem?_map, List.getElem?_modify]
  cases s.inner.rounds[n]? with
  | none => rfl
  | some r => by_cases hn : round = n <;> simp [hn]

/-- The join of a new round does what `Joined` says, under every schedule. -/
theorem joined_join (request : JoinRequest) (s : Stage) :
    Joined request s (s.join request).1 (s.join request).2 := by
  let round := s.inner.rounds.length
  let played := await request round s.inner.slots none (s.spawn request)
  have drift : Drift Task.Later (s.spawn request) played.2 := await_drift ..
  have task : ∀ n i, (s.join request).2.inner.task? n i = played.2.inner.task? n i :=
    task?_note round played.1 played.2
  exact
    { ledger := by
        calc (s.join request).2.inner.ledger
            = played.2.inner.ledger.modify round fun e => (e.1, played.1) :=
              ledger_note round played.1 played.2
          _ = (s.inner.ledger ++ [(request, none)]).modify round fun e => (e.1, played.1) := by
              -- Nothing that goes on during the join touches the ledger.
              rw [drift.world.ledger]
              simp [World.ledger, spawn, updateWorld]
          _ = s.inner.ledger ++ [(request, played.1)] := by
              have last : round = s.inner.ledger.length := s.inner.length_ledger.symm
              rw [last]
              exact List.modifyTailIdx_add _ 0 s.inner.ledger [(request, none)]
      earlier := fun n i t ht => by
        -- The new round had no tasks before.
        have hn : n ≠ round := by
          rintro rfl
          simp [World.task?, round] at ht
        rw [task]
        exact drift.world.later ((task?_spawn request s i hn).trans ht)
      origin := drift.origin
      started := drift.started
      emitted := drift.emitted
      closed := drift.closed
      recorded := drift.recorded
      free := await_free request round s.inner.slots none (s.spawn request)
      settled := fun os hos => by
        obtain ⟨length, accounts, done⟩ :=
          await_outcomes request round s.inner.slots none (s.spawn request)
            (fun _ => kept_spawn request s) (fun _ h => absurd h.symm (Option.some_ne_none _)) hos
        refine ⟨length, fun i o ho => ?_, fun i hi => ?_⟩
        · rw [task]
          exact accounts i o ho
        · rw [World.isOver, task]
          exact done i hi }

end Stage
end Schedule
end Vigil
