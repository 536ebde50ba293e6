import Vigil.Proofs.Race.Invariant
import Vigil.Proofs.Schedule.Whole

/-!
# Racing cleanups act and report once

However many cleanups race, and however the calls that they make follow one another, every body runs
once, a cleanup returns only when all of them are complete, and a body that fails is reported by
exactly one cleanup: the one whose call did the work. No call is cut short, whether or not the run
is cancelled.

The module introduces:

* `Race.reports`, the records that all cleanups together have reported;
* `Race.Once`, what holds of every race in time.
-/

namespace Vigil.Schedule

def Site.IsComplete (s : Site) : Prop := s.begun = 1 ∧ s.work.isSome = true

/-- The records of the observer `o` whose body has come out with some answer: one for a failure, and
none otherwise. -/
def cleanupRecords (o : Registration) : Except Error Unit → List Record
  | .ok () => []
  | .error e => [failureRecord o .cleanup e.message]

theorem recordsOfCall_endingOf (o : Registration) (answer : Except Error Unit) :
    recordsOfCall .cleanup o (endingOf answer).outcome = cleanupRecords o answer := by
  cases answer with
  | error e => rfl
  | ok => rfl

theorem flatMap_eq_of_one {α β : Type} {l : List α} {f : α → List β} {k : Nat} {a : α}
    (here : l[k]? = some a) (others : ∀ κ b, l[κ]? = some b → κ ≠ k → f b = []) :
    l.flatMap f = f a := by
  induction l generalizing k with
  | nil => cases here
  | cons first l ih =>
    rw [List.flatMap_cons]
    cases k with
    | zero =>
      obtain rfl : first = a := Option.some.inj here
      have rest : l.flatMap f = [] := by
        refine List.flatMap_eq_nil_iff.2 fun b hb => ?_
        obtain ⟨κ, hκ⟩ := List.mem_iff_getElem?.1 hb
        exact others (κ + 1) b hκ (Nat.succ_ne_zero κ)
      rw [rest, List.append_nil]
    | succ k =>
      have none : f first = [] := others 0 first rfl (Nat.succ_ne_zero k).symm
      rw [none, List.nil_append]
      exact ih here fun κ b hκ ne => others (κ + 1) b hκ fun same => ne (Nat.succ.inj same)

namespace Race

/-- All that the cleanups of a race have reported: what the forced ones have returned and what the
orchestrator's own one has added to the results. -/
def reports (r : Race) : List Record := r.cleanups.flatMap fun c => c.report.getD []

/-- What holds of a race in time of the cleanups of `run`, at every point of it. -/
structure Once (run : Run) (r : Race) : Prop where
  /-- No body begins a second time. -/
  begun : ∀ i, (r.sites i).begun ≤ 1
  /-- When a cleanup has returned, every body has run once and is complete. -/
  complete : ∀ c ∈ r.cleanups, c.report.isSome = true →
    ∀ i < run.orchestrator.observers.length, (r.sites i).IsComplete
  /-- So it is when the orchestrator has nothing to clean up any more, whoever has done it. -/
  again : r.run.orchestrator.state = .cleanedUp →
    ∀ i < run.orchestrator.observers.length, (r.sites i).IsComplete
  /-- Whatever the other bodies do, a call that has not ended can go on, or waits for its own
  observer's body, which is at work. -/
  goesOn : ∀ k < r.cleanups.length, ∀ i < run.orchestrator.observers.length,
    (∃ e, r.status? k i = some (.ended e)) ∨ r.canGo k i = true ∨
      (r.sites i).guard.worker.isSome = true
  /-- The deadline of a cleanup depends on when it began and on nothing else. There is room for it
  on the host of the run. -/
  deadlines : ∀ c ∈ r.cleanups, ∀ j ∈ c.join, ∃ began, c.since ≤ began ∧
    later? run.scene.origin began run.orchestrator.limits.cleanupTimeout = some j.deadline
  /-- Every call of a cleanup that has returned has returned as well or has failed: none was cut
  short. -/
  outcomes : ∀ (k : Nat) (c : Cleanup), r.cleanups[k]? = some c → c.report.isSome = true →
    ∃ outcomes, r.run.world.ledger[r.first + k]? =
        some (run.orchestrator.cleanupRequest true, some outcomes) ∧
      ∀ o ∈ outcomes, ∃ answer, o = (endingOf answer).outcome
  /-- When all cleanups have returned, a body that has failed was reported once, and nothing else
  was reported. -/
  records : r.cleanups ≠ [] → (∀ c ∈ r.cleanups, c.report.isSome = true) →
    ∀ i o, run.orchestrator.observers[i]? = some o →
      ∃ k answer, (r.sites i).work = some (k, answer) ∧
        r.reports.filter (fun record => record.source == o.name) = cleanupRecords o answer
  /-- The results grow by records of working phases and then by what the orchestrator's own cleanup
  has reported. -/
  results : ∃ worked, (∀ record ∈ worked, IsWorked record) ∧
    r.run.orchestrator.results = run.orchestrator.results ++ worked ++ r.ownReport.getD []

namespace Sound

variable {run : Run} {r : Race} (h : Sound run r)
include h

theorem isComplete {k i : Nat} {e : Ending} (ended : r.status? k i = some (.ended e)) :
    (r.sites i).IsComplete := by
  obtain ⟨doer, answer, works, -⟩ := (h.sites i).ended k e ended
  have worked : (r.sites i).work.isSome = true := by rw [works]; rfl
  refine ⟨?_, worked⟩
  rw [(h.sites i).begun, ← (h.sites i).worked, worked]
  rfl

/-- What a cleanup that has returned makes of the call of an observer: the outcome of `endingOf`
some answer. -/
theorem exists_outcome {k : Nat} {c : Cleanup} (here : r.cleanups[k]? = some c)
    {outcomes : List CallOutcome}
    (accounts : AccountsFor (run.orchestrator.cleanupRequest true).limits r.run.world (r.first + k)
      outcomes) {i : Nat} {o : CallOutcome} (ho : outcomes[i]? = some o) :
    ∃ doer answer, (r.sites i).work = some (doer, answer) ∧
      o = (if k = doer then endingOf answer else .returned {}).outcome := by
  obtain ⟨e, ended, rfl⟩ := (h.cleanups k c here).outcome_eq accounts ho
  obtain ⟨doer, answer, works, rfl⟩ := (h.sites i).ended k e ended
  exact ⟨doer, answer, works, rfl⟩

theorem complete {c : Cleanup} (hc : c ∈ r.cleanups) (returned : c.report.isSome = true) {i : Nat}
    (lt : i < run.orchestrator.observers.length) : (r.sites i).IsComplete := by
  obtain ⟨k, here⟩ := List.mem_iff_getElem?.1 hc
  obtain ⟨records, reports⟩ := Option.isSome_iff_exists.1 returned
  obtain ⟨outcomes, -, -, length, accounts, -⟩ := (h.cleanups k c here).reported records reports
  have lt' : i < outcomes.length := Nat.lt_of_lt_of_eq lt length.symm
  obtain ⟨e, ended, -⟩ :=
    (h.cleanups k c here).outcome_eq accounts (List.getElem?_eq_getElem lt')
  exact h.isComplete ended

/-- What a cleanup that has returned has reported of an observer: the failure of its body if the
call of this cleanup did the work, and nothing otherwise. -/
theorem reportOf_eq (distinct : (run.orchestrator.observers.map Registration.name).Nodup) {k : Nat}
    {c : Cleanup} (here : r.cleanups[k]? = some c) (returned : c.report.isSome = true) {i : Nat}
    {o : Registration} (registered : run.orchestrator.observers[i]? = some o) {doer : Nat}
    {answer : Except Error Unit} (works : (r.sites i).work = some (doer, answer)) :
    (c.report.getD []).filter (fun record => record.source == o.name) =
      if k = doer then cleanupRecords o answer else [] := by
  obtain ⟨records, reports⟩ := Option.isSome_iff_exists.1 returned
  obtain ⟨outcomes, -, rfl, length, accounts, -⟩ := (h.cleanups k c here).reported records reports
  have lt : i < outcomes.length :=
    Nat.lt_of_lt_of_eq (List.getElem?_eq_some_iff.1 registered).1 length.symm
  have ho : outcomes[i]? = some outcomes[i] := List.getElem?_eq_getElem lt
  obtain ⟨doer', answer', works', outcome⟩ := h.exists_outcome here accounts ho
  obtain ⟨rfl, rfl⟩ := Prod.mk.inj (Option.some.inj (works.symm.trans works'))
  -- Names are distinct, so the records in the name of the observer are those of one call.
  have named := filter_zip_named distinct outcomes registered
  have targets : (run.orchestrator.cleanupRequest true).targets = run.orchestrator.observers := rfl
  rw [reports, Option.getD_some, filter_recordsOfRound, outcomesOfRound, targets, Option.getD_some,
    named, ho]
  simp only [Option.toList_some, List.map_cons, List.map_nil, List.flatMap_cons, List.flatMap_nil,
    List.append_nil, outcome]
  split
  · exact recordsOfCall_endingOf o answer
  · exact recordsOfCall_endingOf o (.ok ())

/-- When all cleanups have returned, an observer has the records of its body and no others. -/
theorem filter_reports (distinct : (run.orchestrator.observers.map Registration.name).Nodup)
    (any : r.cleanups ≠ []) (returned : ∀ c ∈ r.cleanups, c.report.isSome = true) {i : Nat}
    {o : Registration} (registered : run.orchestrator.observers[i]? = some o) :
    ∃ k answer, (r.sites i).work = some (k, answer) ∧
      r.reports.filter (fun record => record.source == o.name) = cleanupRecords o answer := by
  obtain ⟨c, hc⟩ := List.exists_mem_of_ne_nil r.cleanups any
  have lt := (List.getElem?_eq_some_iff.1 registered).1
  obtain ⟨⟨doer, answer⟩, works⟩ :=
    Option.isSome_iff_exists.1 (h.complete hc (returned c hc) lt).2
  refine ⟨doer, answer, works, ?_⟩
  -- Only the cleanup whose call did the work contributes anything, and it is one of them.
  have reported (k : Nat) (c : Cleanup) (here : r.cleanups[k]? = some c) :=
    h.reportOf_eq distinct here (returned c (List.mem_of_getElem? here)) registered works
  obtain ⟨t, task, -⟩ := Option.map_eq_some_iff.1 ((h.sites i).doer doer answer works)
  have did : doer < r.cleanups.length := h.lt_of_task task
  have here : r.cleanups[doer]? = some r.cleanups[doer] := List.getElem?_eq_getElem did
  rw [reports, List.filter_flatMap, flatMap_eq_of_one here fun k c hk other => by
    rw [reported k c hk, if_neg other]]
  rw [reported doer _ here, if_pos rfl]

end Sound

/-- Cleanups that race in time act and report once: each body runs once, whichever cleanup's call
gets to it first, and a failure of it is reported once (`Once`). -/
theorem cleanups_act_once {run : Run} (started : run.scene.started = true)
    (first : run.orchestrator.state ≠ .cleanedUp)
    (distinct : (run.orchestrator.observers.map Registration.name).Nodup) {events : List Event}
    (inTime : (start run).InTime events) : Once run ((start run).after events) := by
  have h := (Sound.new run started first).after inTime
  generalize (start run).after events = r at h
  exact
    { begun := fun i => (h.sites i).begun_le
      complete := fun c hc returned i lt => h.complete hc returned lt
      again := fun cleaned i lt => by
        -- The state says that the orchestrator's own cleanup has returned.
        obtain ⟨records, reported⟩ := Option.isSome_iff_exists.1 (h.cleaned cleaned)
        obtain ⟨c, own, reports⟩ := Option.bind_eq_some_iff.1 reported
        obtain ⟨k, -, here⟩ := Option.bind_eq_some_iff.1 own
        exact h.complete (List.mem_of_getElem? here) (by rw [reports]; rfl) lt
      goesOn := fun k hk i lt => by
        rcases (h.cleanups k _ (List.getElem?_eq_getElem hk)).cases lt
          with fresh | running | ⟨e, ended, -⟩
        · exact .inr (.inl (by simp [canGo, show r.status? k i = some .fresh from fresh]))
        · have running : r.status? k i = some .running := running
          rcases (h.sites i).running k running with done | busy
          · exact .inr (.inl (by simp [canGo, running, done]))
          · exact .inr (.inr busy)
        · exact .inl ⟨e, ended⟩
      deadlines := fun c hc j hj => by
        obtain ⟨k, here⟩ := List.mem_iff_getElem?.1 hc
        exact ((h.cleanups k c here).steady j hj).deadline
      outcomes := fun k c here returned => by
        obtain ⟨records, reports⟩ := Option.isSome_iff_exists.1 returned
        obtain ⟨outcomes, noted, -, -, accounts, -⟩ :=
          (h.cleanups k c here).reported records reports
        refine ⟨outcomes, noted, fun o ho => ?_⟩
        obtain ⟨i, hi⟩ := List.mem_iff_getElem?.1 ho
        obtain ⟨doer, answer, -, rfl⟩ := h.exists_outcome here accounts hi
        split
        · exact ⟨answer, rfl⟩
        · exact ⟨.ok (), rfl⟩
      records := fun any returned i o registered =>
        h.filter_reports distinct any returned registered
      results := h.results }

def raceRun : Run :=
  (Run.new "" tieRegistry ⟨.ofSecs 60, .ofSecs 60, .ofSecs 5⟩ 0).after
    [.command (.setup ⟨"", none, none, none, none, false⟩) (served 0 [.returned {}, .returned {}])]

/-- A forced cleanup and the orchestrator's own one begin, and the run is cancelled. The body of the
first observer fails for the orchestrator's own cleanup while the forced one waits for it. The body
of the second observer succeeds for the forced one. The deadlines pass before the cleanups return.
-/
def raceEvents : List Event :=
  [.asks false, .asks true, .turns 0, .turns 1, .beside .cancelRun, .comes 1 0, .comes 0 0,
   .comes 0 1, .finishes 0 (.error .emptyName), .finishes 1 (.ok ()), .passes 0 0, .comes 1 1,
   .passes 1 1, .beside (.elapse 90000), .turns 1, .turns 1, .turns 1, .turns 0, .turns 0,
   .turns 0]

/-- Both cleanups of `raceRun` return, and one of them has reported the failure. -/
theorem cleanups_act_once_of_two :
    let race := (start raceRun).after raceEvents
    (∀ c ∈ race.cleanups, c.report.isSome = true) ∧
      race.reports = [failureRecord ⟨"a", "x"⟩ .cleanup Error.emptyName.message] ∧
      Once raceRun race :=
  ⟨by decide +kernel, by decide +kernel,
    cleanups_act_once (by decide +kernel) (by decide +kernel) (by decide +kernel)
      (by decide +kernel)⟩

end Race
end Vigil.Schedule
