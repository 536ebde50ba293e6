import Vigil.Proofs.Race.Basic
import Vigil.Proofs.Results

/-!
# The join of one cleanup

As long as every call has ended when the deadline is over, the join of a cleanup gives no call up:
it takes over how the calls ended, and what it reports is their records. Its deadline depends on
nothing but when it began and how long a cleanup may take.

The module introduces:

* `Join.Steady`, a join that has given nothing up;
* `Cleanup.Sound`, the invariant of one cleanup.
-/

namespace Vigil.Schedule

/-- The join `j` began at some time after `since` and has neither given a call up nor seen a
cancellation, so its deadline is still that of its start. -/
structure Join.Steady (origin : Nat) (limits : JoinLimits) (since : Nat) (j : Join) : Prop where
  going : j.expired = false
  unseen : j.cancelSeen = false
  deadline : ∃ began, since ≤ began ∧ later? origin began limits.timeout = some j.deadline

namespace Join.Steady

variable {limits : JoinLimits} {since origin host now : Nat} {j j' : Join}

theorem start {calls : List Nat} (le : since ≤ now)
    (started : Join.start? origin limits now false calls = some j) :
    Steady origin limits since j := by
  obtain ⟨deadline, room, same⟩ := Option.bind_eq_some_iff.1 started
  cases same
  exact ⟨rfl, rfl, now, le, room⟩

/-- A turn gives nothing up if all calls have ended when the deadline has passed: `Steady` is
kept. -/
theorem turn (h : Steady origin limits since j) {ending? : Nat → Option Ending} {stop : Option Nat}
    (prompt : j.deadline ≤ now → ∀ call ∈ j.waiting, (ending? call).isSome = true)
    (turned : j.turn host now false ending? = some (j', stop)) :
    stop = none ∧ Steady origin limits since j' := by
  cases Join.turned_of_turn turned with
  | done => exact ⟨rfl, h⟩
  | ended => exact ⟨rfl, h.going, h.unseen, h.deadline⟩
  | @late call _ waiting unended late =>
    have late : j.deadline ≤ now := late.resolve_left (Bool.eq_false_iff.1 h.going)
    have ended := prompt late call (by rw [waiting]; exact List.mem_cons_self ..)
    simp [unended] at ended
  | seen _ _ _ _ cancelled => cases cancelled
  | idle => exact ⟨rfl, h⟩

end Join.Steady

/-! ## What a cleanup depends on -/

section Congr

variable {size round start : Nat} {limits : JoinLimits} {w v : World}
  (same : ∀ i, v.task? round i = w.task? round i)
include same

theorem Kept.congr (h : Kept size round start w) : Kept size round start v where
  present i hi := by
    rw [same]
    exact h.present i hi
  aborted i t hi := by
    rw [same]
    exact h.aborted i t hi
  stopped i t hi := by
    rw [same]
    exact h.stopped i t hi

theorem AccountsFor.congr {outcomes : List CallOutcome} (h : AccountsFor limits w round outcomes) :
    AccountsFor limits v round outcomes := by
  intro i o ho
  rw [same]
  exact h i o ho

theorem isOver_congr (i : Nat) : v.isOver round i = w.isOver round i := by
  rw [World.isOver, same, World.isOver]

theorem Waits.congr {j : Join} (h : Waits limits size round w j) :
    Waits limits size round v j :=
  { h with
    accounts := h.accounts.congr same
    done := fun i hi => by
      rw [isOver_congr same]
      exact h.done i hi
    kept := h.kept.congr same }

end Congr

/-- The cleanup `c` has made the calls of `request` in `round`, and nobody has asked them to
stop. -/
structure Cleanup.Sound (origin : Nat) (request : JoinRequest) (w : World) (round : Nat)
    (c : Cleanup) : Prop where
  asked : ∃ outcomes, w.ledger[round]? = some (request, outcomes)
  /-- None of its calls was asked to stop. -/
  kept : Kept request.targets.length round 0 w
  waits : ∀ j ∈ c.join, Waits request.limits request.targets.length round w j
  steady : ∀ j ∈ c.join, Join.Steady origin request.limits c.since j
  /-- It has reported the records of its calls, all of which are over. -/
  reported : ∀ records ∈ c.report, ∃ outcomes,
    w.ledger[round]? = some (request, some outcomes) ∧
    records = recordsOfRound request (some outcomes) ∧
    outcomes.length = request.targets.length ∧ AccountsFor request.limits w round outcomes ∧
    ∀ i < request.targets.length, w.isOver round i = true

namespace Cleanup.Sound

variable {origin : Nat} {request : JoinRequest} {w v : World} {round : Nat} {c : Cleanup}

theorem congr (h : c.Sound origin request w round) (same : ∀ i, v.task? round i = w.task? round i)
    (ledger : v.ledger[round]? = w.ledger[round]?) : c.Sound origin request v round where
  asked := by
    rw [ledger]
    exact h.asked
  kept := h.kept.congr same
  waits j hj := (h.waits j hj).congr same
  steady := h.steady
  reported records reports := by
    obtain ⟨outcomes, noted, made, length, accounts, ended⟩ := h.reported records reports
    refine ⟨outcomes, ledger.trans noted, made, length, accounts.congr same, fun i hi => ?_⟩
    rw [isOver_congr same]
    exact ended i hi

theorem moved (h : c.Sound origin request w round) (evolves : World.Evolves Task.Moved w v) :
    c.Sound origin request v round where
  asked := by
    rw [evolves.ledger]
    exact h.asked
  kept := h.kept.moved evolves
  waits j hj := (h.waits j hj).moved evolves
  steady := h.steady
  reported records reports := by
    obtain ⟨outcomes, noted, made, length, accounts, ended⟩ := h.reported records reports
    have keeps := (evolves.mono fun _ _ m => m.toLater).keeps
    exact ⟨outcomes, by rw [evolves.ledger]; exact noted, made, length, accounts.later keeps,
      fun i hi => keeps.isOver (ended i hi)⟩

theorem join (h : c.Sound origin request w round) {j : Join}
    (waits : Waits request.limits request.targets.length round w j)
    (steady : Join.Steady origin request.limits c.since j) :
    Cleanup.Sound origin request w round { c with join := some j } :=
  { h with
    waits := fun _ hj => Option.some.inj hj ▸ waits
    steady := fun _ hj => Option.some.inj hj ▸ steady }

/-- A cleanup whose loop is over reports the records of its calls. The outcomes are noted in the
round, which leaves the calls as they are. -/
theorem leave (h : c.Sound origin request w round) {j : Join} (begun : c.join = some j)
    {outcomes : List CallOutcome} (returns : j.outcomes? (w.isOver round) = some outcomes)
    (same : ∀ i, v.task? round i = w.task? round i)
    (noted : v.ledger[round]? = some (request, some outcomes)) :
    Cleanup.Sound origin request v round
      { c with report := some (recordsOfRound request (some outcomes)) } where
  asked := ⟨some outcomes, noted⟩
  kept := h.kept.congr same
  waits j hj := (h.waits j hj).congr same
  steady := h.steady
  reported records reports := by
    obtain ⟨length, accounts, ended⟩ := (h.waits j begun).outcomes returns
    obtain rfl : recordsOfRound request (some outcomes) = records := Option.some.inj reports
    refine ⟨outcomes, noted, rfl, length, accounts.congr same, fun i hi => ?_⟩
    rw [isOver_congr same]
    exact ended i hi

theorem cases (h : c.Sound origin request w round) {i : Nat} (lt : i < request.targets.length) :
    (w.task? round i).map Task.status = some .fresh ∨
    (w.task? round i).map Task.status = some .running ∨
    ∃ e, (w.task? round i).map Task.status = some (.ended e) ∧ w.ending? round i = some e := by
  obtain ⟨t, ht⟩ := h.kept.present i lt
  cases status : t.status with
  | fresh => exact .inl (by simp [ht, status])
  | running => exact .inr (.inl (by simp [ht, status]))
  | ended e =>
    refine .inr (.inr ⟨e, by simp [ht, status], ?_⟩)
    simp [World.ending?, ht, Task.ending?, status]
  | stopped => exact absurd status (h.kept.stopped i t (Nat.zero_le i) ht)

/-- The outcomes that account for calls that nobody has stopped are how these ended. -/
theorem outcome_eq (h : c.Sound origin request w round) {outcomes : List CallOutcome}
    (accounts : AccountsFor request.limits w round outcomes) {i : Nat} {o : CallOutcome}
    (ho : outcomes[i]? = some o) :
    ∃ e, (w.task? round i).map Task.status = some (.ended e) ∧ o = e.outcome := by
  obtain ⟨t, ht, account⟩ := accounts i o ho
  have kept := h.kept.aborted i t (Nat.zero_le i) ht
  cases account with
  | ended e status => exact ⟨e, by simp [ht, status], rfl⟩
  | timedOut aborted => exact absurd (kept.symm.trans aborted) Bool.false_ne_true
  | abandoned aborted => exact absurd (kept.symm.trans aborted) Bool.false_ne_true

end Cleanup.Sound
end Vigil.Schedule
