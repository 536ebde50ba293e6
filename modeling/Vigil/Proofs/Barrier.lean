import Vigil.Proofs.PhaseTrace

/-!
# Phases never overlap

Before an observer is called in a phase, all calls of the phases before it are over, those that were
asked to stop included: whatever the schedule is, a join that returns leaves no task behind.

The module introduces:

* `World.Quiet`, when all calls of a round are over;
* `Barred`, the invariant of runs: at most the last round is not quiet, and none is while the run
  can be asked for something.
-/

namespace Vigil.Schedule

/-- All calls of `round` are over, whether they ended by themselves or were stopped. -/
def World.Quiet (w : World) (round : Nat) : Prop :=
  ∀ e, w.ledger[round]? = some e → ∀ i < e.1.targets.length, w.isOver round i = true

namespace World.Quiet

variable {w v : World} {round : Nat}

/-- A quiet round stays quiet, since a task that is over never starts again. -/
theorem later (h : w.Quiet round) (evolves : World.Evolves Task.Later w v) : v.Quiet round := by
  intro e he i hi
  rw [evolves.ledger] at he
  exact evolves.keeps.isOver (h e he i hi)

theorem isLive (h : w.Quiet round) {a : Round} (ha : w.rounds[round]? = some a) :
    a.isLive = false := by
  have entry : w.ledger[round]? = some (a.request, a.outcomes) := by
    rw [World.ledger, List.getElem?_map, ha]
    rfl
  refine List.any_eq_false.2 fun t ht => ?_
  obtain ⟨i, hi, rfl⟩ := List.mem_iff_getElem.1 ht
  have done := h _ entry i (by rwa [← a.length_tasks])
  have task : w.task? round i = some a.tasks[i] := by
    simp [World.task?, ha, hi]
  simpa [World.isOver, task] using done

end World.Quiet

namespace Joined

variable {request : JoinRequest} {s s' : Stage} {outcomes : Option (List CallOutcome)}

theorem length_eq (h : Joined request s outcomes s') :
    s'.inner.rounds.length = s.inner.rounds.length + 1 := by
  simpa using congrArg List.length h.ledger

theorem quiet_earlier (h : Joined request s outcomes s') {round : Nat}
    (lt : round < s.inner.rounds.length) (quiet : s.inner.Quiet round) : s'.inner.Quiet round := by
  intro e he i hi
  rw [h.ledger, List.getElem?_append_left (by simpa using lt)] at he
  exact h.earlier.isOver (quiet e he i hi)

/-- When the join returns the new round is quiet: `Joined.settled` has every task over. -/
theorem quiet_new (h : Joined request s outcomes s') (returned : outcomes.isSome = true) :
    s'.inner.Quiet s.inner.rounds.length := by
  obtain ⟨os, rfl⟩ := Option.isSome_iff_exists.1 returned
  obtain ⟨-, -, done⟩ := h.settled os rfl
  intro e he i hi
  rw [h.ledger, ← s.inner.length_ledger, List.getElem?_concat_length] at he
  cases he
  exact done i hi

end Joined

/-- At most the last round of the run `r` is not quiet, and none is when the run is free. -/
structure Barred (r : Run) : Prop where
  earlier : ∀ m n, m < n → n < r.world.rounds.length → r.world.Quiet m
  free : r.isFree = true → ∀ n < r.world.rounds.length, r.world.Quiet n

namespace Barred

variable {q q' : Run}

theorem new (runId : String) (registry : Registry) (limits : Limits) (origin : Nat) :
    Barred (Run.new runId registry limits origin) where
  earlier _ _ _ lt := absurd lt (Nat.not_lt_zero _)
  free _ _ lt := absurd lt (Nat.not_lt_zero _)

theorem rests (h : Barred q) (rests : Rests q q') : Barred q' := by
  have length : q'.world.rounds.length = q.world.rounds.length := rests.drift.world.length_eq
  have free : q'.isFree = q.isFree := by simp [Run.isFree, rests.standing]
  refine ⟨fun m n lt hn => ?_, fun hfree n hn => ?_⟩
  · rw [length] at hn
    exact (h.earlier m n lt hn).later rests.drift.world
  · rw [length] at hn
    exact (h.free (free ▸ hfree) n hn).later rests.drift.world

/-- A command makes its calls when all earlier ones are over, so it leaves at most its own round
unquiet. -/
theorem asks (h : Barred q) (free : q.isFree = true) {c : Command} {answer : Except Halt Unit}
    (asked : Asked c q answer q') : Barred q' := by
  rcases asked.world with same | ⟨request, s, outcomes, s', before, joined, after⟩
  · refine ⟨by rw [same]; exact h.earlier, fun _ => ?_⟩
    rw [same]
    exact h.free free
  · have old (n : Nat) (hn : n < s.inner.rounds.length) : q'.world.Quiet n := by
      rw [after]
      refine joined.quiet_earlier hn ?_
      rw [before] at hn ⊢
      exact h.free free n hn
    have length : q'.world.rounds.length = s.inner.rounds.length + 1 := by
      rw [after, joined.length_eq]
    refine ⟨fun m n lt hn => old m (by omega), fun free' n hn => ?_⟩
    -- The new round is quiet because the join has returned, and the others were before.
    by_cases last : n = s.inner.rounds.length
    · have standing : s'.inner.standing = .free := by
        rw [← after]
        exact of_decide_eq_true free'
      rw [after, last]
      exact joined.quiet_new (joined.free.1 standing)
    · exact old n (by omega)

end Barred

theorem barred_after (runId : String) (registry : Registry) (limits : Limits) (origin : Nat)
    (acts : List Act) :
    Barred ((Run.new runId registry limits origin).after acts) :=
  Run.after_invariant (.new runId registry limits origin) (fun h rests => h.rests rests)
    (fun h free asked => h.asks free asked) acts

/-- The phases of the rounds are strictly ordered, so two rounds of one run never share a phase. -/
theorem phases_pairwise (runId : String) (registry : Registry) (limits : Limits) (origin : Nat)
    (acts : List Act) :
    ((Run.new runId registry limits origin).after acts).world.rounds.Pairwise fun a b =>
      Phase.all.idxOf a.phase < Phase.all.idxOf b.phase := by
  have order : Phase.all.Pairwise fun a b => Phase.all.idxOf a < Phase.all.idxOf b := by decide
  have sorted := order.sublist (phases_sublist runId registry limits origin acts)
  simpa [World.ledger, List.pairwise_map, Round.phase] using sorted

/-- The barrier between phases. `Stage.join` returns only when every call that it made is over,
whether it ended by itself or was stopped. So in every state of a run, the midst of a join included,
the calls that are not over belong to one phase, and once a call of a phase was made no call of an
earlier phase is still going on. -/
theorem phase_barrier :
    (∀ (request : JoinRequest) (s s' : Stage) (outcomes : List CallOutcome),
      s.join request = (some outcomes, s') →
      ∀ i < request.targets.length, s'.inner.isOver s.inner.rounds.length i = true) ∧
    ∀ (runId : String) (registry : Registry) (limits : Limits) (origin : Nat) (acts : List Act),
      let r := (Run.new runId registry limits origin).after acts
      (∀ a ∈ r.world.rounds, ∀ b ∈ r.world.rounds,
        a.isLive = true → b.isLive = true → a.phase = b.phase) ∧
      (∀ a ∈ r.world.rounds, ∀ b ∈ r.world.rounds,
        Phase.all.idxOf a.phase < Phase.all.idxOf b.phase → a.isLive = false) ∧
      (r.isFree = true → ∀ a ∈ r.world.rounds, a.isLive = false) := by
  refine ⟨fun request s s' outcomes returned => ?_, fun runId registry limits origin acts => ?_⟩
  · have joined := Stage.joined_join request s
    rw [returned] at joined
    exact (joined.settled outcomes rfl).2.2
  · have barred := barred_after runId registry limits origin acts
    have order := phases_pairwise runId registry limits origin acts
    generalize (Run.new runId registry limits origin).after acts = r at barred order
    refine ⟨fun a ha b hb liveA liveB => ?_, fun a ha b hb lt => ?_, fun free a ha => ?_⟩
    -- Of two different rounds the earlier one is quiet.
    · obtain ⟨m, hm, rfl⟩ := List.mem_iff_getElem.1 ha
      obtain ⟨n, hn, rfl⟩ := List.mem_iff_getElem.1 hb
      rcases Nat.lt_trichotomy m n with lt | same | lt
      · have quiet := (barred.earlier m n lt hn).isLive (List.getElem?_eq_getElem hm)
        simp [quiet] at liveA
      · subst same
        rfl
      · have quiet := (barred.earlier n m lt hm).isLive (List.getElem?_eq_getElem hn)
        simp [quiet] at liveB
    · obtain ⟨m, hm, rfl⟩ := List.mem_iff_getElem.1 ha
      obtain ⟨n, hn, rfl⟩ := List.mem_iff_getElem.1 hb
      -- The rounds are in the order of their phases.
      have earlier : m < n := by
        rcases Nat.lt_trichotomy m n with lt' | same | gt
        · exact lt'
        · subst same
          exact absurd lt (Nat.lt_irrefl _)
        · exact absurd lt (Nat.lt_asymm (List.pairwise_iff_getElem.1 order n m hn hm gt))
      exact (barred.earlier m n earlier hn).isLive (List.getElem?_eq_getElem hm)
    · obtain ⟨n, hn, rfl⟩ := List.mem_iff_getElem.1 ha
      exact (barred.free free n hn).isLive (List.getElem?_eq_getElem hn)

end Vigil.Schedule
