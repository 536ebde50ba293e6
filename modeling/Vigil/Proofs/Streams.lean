import Vigil.Proofs.PhaseTrace
import Vigil.Proofs.StableSort

/-!
# The streams of intervals

After collection the raw stream of a run is the stable order of what the recorder let in and what
the observers handed over. After construction the final stream is the stable order of all that, of
what the observers derived and of what the recorder let in meanwhile. The observers are given
exactly these streams, and nothing changes them later.

The module introduces:

* `State.rank`, how far a run has come;
* `Yielded`, the intervals that the calls of a phase hand over;
* `Given`, the streams that a call is given.
-/

namespace Vigil

/-- How far a run has come in the state `s`: the number of phases that lead there. -/
def State.rank (s : State) : Nat := State.all.idxOf s

theorem Phase.Ready.rank_settled {phase : Phase} {s : State} (ready : phase.Ready s)
    (working : phase ≠ .cleanup) : phase.settled.rank = s.rank + 1 := by
  cases phase <;> cases s <;> revert ready working <;> decide

/-- The intervals that a call hands over. There are none if it does not return. -/
def intervalsOfCall : CallOutcome → List Interval
  | .returned yield => yield.intervals
  | _ => []

theorem intervals_ofCalls_eq {phase : Phase} (kept : phase = .collection ∨ phase = .construction)
    (targets : List Registration) (outcomes : List CallOutcome) :
    (Settlement.ofCalls phase targets outcomes).intervals =
      (targets.zip outcomes).flatMap fun c => intervalsOfCall c.2 := by
  rw [Settlement.intervals_ofCalls]
  refine congrArg (List.flatMap · _) (funext fun c => ?_)
  rcases kept with rfl | rfl <;> cases c.2 <;> rfl

namespace Schedule

section Settle

variable {c : Command} (settlement : Option Settlement) (r : Run)

theorem Command.raw_settle (other : c.phase ≠ .collection) :
    (c.settle settlement r).orchestrator.raw = r.orchestrator.raw := by
  cases c with
  | collect => exact absurd rfl other
  | _ => rfl

theorem Command.final_settle (other : c.phase ≠ .construction) :
    (c.settle settlement r).orchestrator.final = r.orchestrator.final := by
  cases c with
  | construct => exact absurd rfl other
  | _ => rfl

theorem Command.recorder_settle (first : c.phase ≠ .collection)
    (second : c.phase ≠ .construction) :
    (c.settle settlement r).scene.recorder = r.scene.recorder := by
  cases c with
  | collect => exact absurd rfl first
  | construct => exact absurd rfl second
  | _ => rfl

end Settle

namespace Asked

variable {c : Command} {q q' : Run} {answer : Except Halt Unit}

/-- A run never goes back, whatever it is asked for: `rank` does not fall. -/
theorem rank_le (h : Asked c q answer q') :
    q.orchestrator.state.rank ≤ q'.orchestrator.state.rank := by
  have forward (working : c.phase ≠ .cleanup) (ready : c.phase.Ready q.orchestrator.state) :
      q.orchestrator.state.rank ≤ c.phase.settled.rank := by
    rw [ready.rank_settled working]
    exact Nat.le_succ _
  cases h with
  | refused | again | uncleaned => exact Nat.le_refl _
  | skipped working ready => simpa [Progress.begun] using forward working ready
  | unjoined _ working ready => simpa [Progress.begun] using forward working ready
  | joined _ _ working ready => simpa [Progress.settledWith] using forward working ready
  | cleaned =>
    change q.orchestrator.state.rank ≤ State.cleanedUp.rank
    cases q.orchestrator.state <;> decide

theorem raw_eq (h : Asked c q answer q') (past : 2 ≤ q.orchestrator.state.rank) :
    q'.orchestrator.raw = q.orchestrator.raw := by
  have other (working : c.phase ≠ .cleanup) (ready : c.phase.Ready q.orchestrator.state) :
      c.phase ≠ .collection := by
    intro collection
    have next := ready.rank_settled working
    rw [collection] at next
    have two : Phase.collection.settled.rank = 2 := rfl
    omega
  cases h with
  | refused | unjoined | again | uncleaned | cleaned => rfl
  | skipped working ready => rw [Command.raw_settle _ _ (other working ready)]; rfl
  | joined _ _ working ready => rw [Command.raw_settle _ _ (other working ready)]; rfl

theorem final_eq (h : Asked c q answer q') (past : 3 ≤ q.orchestrator.state.rank) :
    q'.orchestrator.final = q.orchestrator.final := by
  have other (working : c.phase ≠ .cleanup) (ready : c.phase.Ready q.orchestrator.state) :
      c.phase ≠ .construction := by
    intro construction
    have next := ready.rank_settled working
    rw [construction] at next
    have three : Phase.construction.settled.rank = 3 := rfl
    omega
  cases h with
  | refused | unjoined | again | uncleaned | cleaned => rfl
  | skipped working ready => rw [Command.final_settle _ _ (other working ready)]; rfl
  | joined _ _ working ready => rw [Command.final_settle _ _ (other working ready)]; rfl

theorem recorded (h : Asked c q answer q')
    (undrained : q'.orchestrator.state.rank < 2 ∨
      2 ≤ q.orchestrator.state.rank ∧ q'.orchestrator.state.rank < 3) :
    ∃ new, q'.scene.recorder.queue = q.scene.recorder.queue ++ new ∧
      q'.world.accepted = q.world.accepted ++ new := by
  -- Each phase leads to a state of its own, so the states tell which phase this was not.
  have others (working : c.phase ≠ .cleanup) (ready : c.phase.Ready q.orchestrator.state)
      (settled : q'.orchestrator.state = c.phase.settled) :
      c.phase ≠ .collection ∧ c.phase ≠ .construction := by
    have next := ready.rank_settled working
    rw [settled] at undrained
    refine ⟨fun collection => ?_, fun construction => ?_⟩
    · rw [collection] at next undrained
      have two : Phase.collection.settled.rank = 2 := rfl
      omega
    · rw [construction] at next undrained
      have three : Phase.construction.settled.rank = 3 := rfl
      omega
  cases h with
  | refused | again => exact ⟨[], by simp, by simp⟩
  | skipped working ready =>
    obtain ⟨first, second⟩ := others working ready (by simp [Progress.begun])
    exact ⟨[], by simp [Command.recorder_settle, first, second, Progress.begun],
      by simp [Run.world, Progress.begun]⟩
  | unjoined scene _ _ _ joined =>
    simpa [Run.world] using joined.recorded
  | joined outcomes scene working ready _ joined =>
    obtain ⟨first, second⟩ := others working ready (by simp [Progress.settledWith])
    simpa [Run.world, Command.recorder_settle, first, second, Progress.settledWith]
      using joined.recorded
  | uncleaned scene _ _ joined => exact joined.recorded
  | cleaned outcomes scene _ _ joined => exact joined.recorded

/-- The round that a command adds, if it adds any, is that of a cleanup or of its own `call`. -/
theorem ledger (h : Asked c q answer q') :
    q'.world.ledger = q.world.ledger ∨
      ∃ request outcomes, q'.world.ledger = q.world.ledger ++ [(request, outcomes)] ∧
        (request.call = .cleanup ∨ request.call = c.call q ∧ c.phase ≠ .cleanup ∧
          c.phase.Ready q.orchestrator.state ∧ q'.orchestrator.state = c.phase.settled) := by
  cases h with
  | refused | again => exact .inl rfl
  | skipped => exact .inl (by simp [Run.world, Progress.begun])
  | unjoined scene working ready _ joined =>
    refine .inr ⟨q.requestOf (c.call q), none, ?_, .inr ⟨rfl, working, ready, rfl⟩⟩
    simpa [Run.world] using joined.ledger
  | joined outcomes scene working ready _ joined =>
    refine .inr ⟨q.requestOf (c.call q), some outcomes, ?_, .inr ⟨rfl, working, ready, ?_⟩⟩
    on_goal 2 => simp [Progress.settledWith]
    simpa [Run.world, Progress.settledWith] using joined.ledger
  | uncleaned scene _ _ joined => exact .inr ⟨_, _, joined.ledger, .inl rfl⟩
  | cleaned outcomes scene _ _ joined => exact .inr ⟨_, _, joined.ledger, .inl rfl⟩

end Asked

/-! ## What stays as it is -/

theorem raw_after {r : Run} (past : 2 ≤ r.orchestrator.state.rank) (acts : List Act) :
    2 ≤ (r.after acts).orchestrator.state.rank ∧
      (r.after acts).orchestrator.raw = r.orchestrator.raw := by
  refine Run.after_invariant (motive := fun q =>
    2 ≤ q.orchestrator.state.rank ∧ q.orchestrator.raw = r.orchestrator.raw)
    ⟨past, rfl⟩ ?_ ?_ acts
  · intro q q' h rests
    rw [rests.orchestrator]
    exact h
  · intro q q' c answer ⟨past, same⟩ _ asked
    exact ⟨Nat.le_trans past asked.rank_le, (asked.raw_eq past).trans same⟩

theorem final_after {r : Run} (past : 3 ≤ r.orchestrator.state.rank) (acts : List Act) :
    3 ≤ (r.after acts).orchestrator.state.rank ∧
      (r.after acts).orchestrator.final = r.orchestrator.final := by
  refine Run.after_invariant (motive := fun q =>
    3 ≤ q.orchestrator.state.rank ∧ q.orchestrator.final = r.orchestrator.final)
    ⟨past, rfl⟩ ?_ ?_ acts
  · intro q q' h rests
    rw [rests.orchestrator]
    exact h
  · intro q q' c answer ⟨past, same⟩ _ asked
    exact ⟨Nat.le_trans past asked.rank_le, (asked.final_eq past).trans same⟩

/-- Until collection everything that the recorder let in waits there, as nothing has taken it. -/
theorem queue_eq_accepted (runId : String) (registry : Registry) (limits : Limits) (origin : Nat)
    (acts : List Act) :
    let r := (Run.new runId registry limits origin).after acts
    r.orchestrator.state.rank < 2 → r.scene.recorder.queue = r.world.accepted := by
  refine Run.after_invariant (motive := fun q =>
    q.orchestrator.state.rank < 2 → q.scene.recorder.queue = q.world.accepted)
    (fun _ => rfl) ?_ ?_ acts
  · intro q q' h rests early
    rw [rests.orchestrator] at early
    obtain ⟨new, queue, accepted⟩ := rests.drift.recorded
    rw [queue, h early]
    exact accepted.symm
  · intro q q' c answer h _ asked early
    obtain ⟨new, queue, accepted⟩ := asked.recorded (.inl early)
    rw [queue, accepted, h (Nat.lt_of_le_of_lt asked.rank_le early)]

theorem accepted_after {r : Run} (past : 2 ≤ r.orchestrator.state.rank)
    (drained : r.scene.recorder.queue = []) (acts : List Act)
    (early : (r.after acts).orchestrator.state.rank < 3) :
    (r.after acts).world.accepted =
      r.world.accepted ++ (r.after acts).scene.recorder.queue := by
  -- The rank only grows, so it goes into the invariant along with what the recorder holds.
  have both := Run.after_invariant (motive := fun q =>
    2 ≤ q.orchestrator.state.rank ∧ (q.orchestrator.state.rank < 3 →
      q.world.accepted = r.world.accepted ++ q.scene.recorder.queue))
    (r := r) ⟨past, fun _ => by rw [drained, List.append_nil]⟩ ?_ ?_ acts
  · exact both.2 early
  · intro q q' ⟨past, h⟩ rests
    rw [rests.orchestrator]
    refine ⟨past, fun early => ?_⟩
    obtain ⟨new, queue, accepted⟩ := rests.drift.recorded
    rw [queue, ← List.append_assoc, ← h early]
    exact accepted
  · intro q q' c answer ⟨past, h⟩ _ asked
    refine ⟨Nat.le_trans past asked.rank_le, fun early => ?_⟩
    obtain ⟨new, queue, accepted⟩ := asked.recorded (.inr ⟨past, early⟩)
    rw [queue, accepted, ← List.append_assoc, h (Nat.lt_of_le_of_lt asked.rank_le early)]

/-! ## What the calls are given -/

/-- A call is given the streams `raw` and `final`, as far as it is given any. -/
def Given (raw final : Timeline) : Call → Prop
  | .construction starting _ _ => starting = raw
  | .evaluation given => given = final
  | .storage _ _ given _ => given = final
  | _ => True

theorem given_of_rank {call : Call} (raw final : Timeline)
    (early : call.phase ≠ .cleanup → call.phase.settled.rank ≤ 2) : Given raw final call := by
  cases call with
  | setup | collection | cleanup => trivial
  | construction => exact absurd (early nofun) (by decide : ¬Phase.construction.settled.rank ≤ 2)
  | evaluation => exact absurd (early nofun) (by decide : ¬Phase.evaluation.settled.rank ≤ 2)
  | storage => exact absurd (early nofun) (by decide : ¬Phase.storage.settled.rank ≤ 2)

/-- The calls of the run `r` were given its streams: the invariant behind what construction,
evaluation and storage see. -/
structure Fed (r : Run) : Prop where
  /-- Every call was given the streams of the run. -/
  given : ∀ e ∈ r.world.ledger, Given r.orchestrator.raw r.orchestrator.final e.1.call
  past : ∀ e ∈ r.world.ledger, e.1.call.phase ≠ .cleanup →
    e.1.call.phase.settled.rank ≤ r.orchestrator.state.rank

namespace Fed

variable {q q' : Run}

theorem new (runId : String) (registry : Registry) (limits : Limits) (origin : Nat) :
    Fed (Run.new runId registry limits origin) where
  given _ h := by simp [Run.world, Run.new, Progress.new, World.ledger] at h
  past _ h := by simp [Run.world, Run.new, Progress.new, World.ledger] at h

theorem rests (h : Fed q) (rests : Rests q q') : Fed q' := by
  have ledger : q'.world.ledger = q.world.ledger := rests.drift.world.ledger
  refine ⟨?_, ?_⟩ <;> rw [ledger, rests.orchestrator]
  · exact h.given
  · exact h.past

theorem given_of_mem (h : Fed q) {c : Command} {answer : Except Halt Unit}
    (asked : Asked c q answer q') {e : JoinRequest × Option (List CallOutcome)}
    (he : e ∈ q.world.ledger) : Given q'.orchestrator.raw q'.orchestrator.final e.1.call := by
  -- Before construction no call was given a stream; from then on neither stream changes.
  by_cases constructed : 3 ≤ q.orchestrator.state.rank
  · rw [asked.raw_eq (Nat.le_of_succ_le constructed), asked.final_eq constructed]
    exact h.given e he
  · refine given_of_rank _ _ fun working => ?_
    have := h.past e he working
    omega

theorem given_call {c : Command} {answer : Except Halt Unit} (asked : Asked c q answer q')
    (working : c.phase ≠ .cleanup) (ready : c.phase.Ready q.orchestrator.state) :
    Given q'.orchestrator.raw q'.orchestrator.final (c.call q) := by
  have next := ready.rank_settled working
  cases c with
  | setup | collect | cleanup => trivial
  | construct =>
    have rank : Phase.construction.settled.rank = 3 := rfl
    rw [Command.phase, rank] at next
    exact (asked.raw_eq (by omega)).symm
  | evaluate =>
    have rank : Phase.evaluation.settled.rank = 4 := rfl
    rw [Command.phase, rank] at next
    exact (asked.final_eq (by omega)).symm
  | store =>
    have rank : Phase.storage.settled.rank = 5 := rfl
    rw [Command.phase, rank] at next
    exact (asked.final_eq (by omega)).symm

theorem asks (h : Fed q) {c : Command} {answer : Except Halt Unit}
    (asked : Asked c q answer q') : Fed q' := by
  -- No command leads to an earlier state.
  have old {e} (he : e ∈ q.world.ledger) (working : e.1.call.phase ≠ .cleanup) :
      e.1.call.phase.settled.rank ≤ q'.orchestrator.state.rank :=
    Nat.le_trans (h.past e he working) asked.rank_le
  rcases asked.ledger with same | ⟨request, outcomes, added, call⟩
  · refine ⟨?_, ?_⟩ <;> rw [same]
    · exact fun e he => h.given_of_mem asked he
    · exact fun e he => old he
  · refine ⟨fun e he => ?_, fun e he working => ?_⟩ <;>
      rw [added, List.mem_append, List.mem_singleton] at he
    · rcases he with he | rfl
      · exact h.given_of_mem asked he
      · rcases call with cleanup | ⟨call, working, ready, -⟩
        · simp only [cleanup]
          trivial
        · simp only [call]
          exact given_call asked working ready
    · rcases he with he | rfl
      · exact old he working
      · rcases call with cleanup | ⟨call, -, -, settled⟩
        · exact absurd (congrArg Call.phase cleanup) working
        · simp [call, settled]

theorem after (h : Fed q) (acts : List Act) : Fed (q.after acts) :=
  Run.after_invariant h (fun h rests => h.rests rests) (fun h _ asked => h.asks asked) acts

end Fed

/-! ## How the streams are made -/

/-- The intervals that the calls of a phase handed over while `r` became `r'`, in the order of
`observers`: those of the calls that returned, and none if the phase was skipped. -/
inductive Yielded (observers : List Registration) (call : Call) (r r' : Run) :
    List Interval → Prop
  | skipped (cancelled : r.isCancelled = true) (calls : r'.world.ledger = r.world.ledger) :
    Yielded observers call r r' []
  | joined (limits : JoinLimits) (outcomes : List CallOutcome) (going : r.isCancelled = false)
    (length : outcomes.length = observers.length)
    (accounts : AccountsFor limits r'.world r.world.rounds.length outcomes)
    (calls :
      r'.world.ledger = r.world.ledger ++ [(⟨observers, call, limits⟩, some outcomes)]) :
    Yielded observers call r r' ((observers.zip outcomes).flatMap fun c => intervalsOfCall c.2)

theorem Yielded.of_stand {observers : List Registration} {call : Call} {r r' : Run}
    {intervals : List Interval} {standing : Standing} {slots : List Slot}
    (h : Yielded observers call (r.updateScene fun s => s.stand standing slots) r' intervals) :
    Yielded observers call r r' intervals := by
  cases h with
  | skipped cancelled calls => exact .skipped cancelled calls
  | joined limits outcomes going length accounts calls =>
    exact .joined limits outcomes going length accounts calls

namespace Asked

variable {q q' : Run}

theorem returned {c : Command} (h : Asked c q (.ok ()) q')
    (kept : c.phase = .collection ∨ c.phase = .construction) :
    c.phase.Ready q.orchestrator.state ∧ q'.orchestrator.state = c.phase.settled ∧
      ∃ (settlement : Option Settlement) (p : Run), q' = c.settle settlement p ∧
        p.orchestrator.raw = q.orchestrator.raw ∧
        (∃ new, p.scene.recorder.queue = q.scene.recorder.queue ++ new ∧
          q'.world.accepted = q.world.accepted ++ new) ∧
        Yielded q.orchestrator.observers (c.call q) q q' (settlement.getD {}).intervals := by
  -- Neither of them is cleanup, so the calls are those of a working phase.
  have busy : c.phase ≠ .cleanup := by rcases kept with h | h <;> simp [h]
  cases h with
  | skipped working ready cancelled =>
    refine ⟨ready, by simp [Progress.begun], none, q.begun c.phase, rfl, rfl, ⟨[], ?_, ?_⟩, ?_⟩
    · simp [Progress.begun]
    · simp [Run.world, Progress.begun]
    · exact .skipped cancelled (by simp [Run.world, Progress.begun])
  | joined outcomes scene working ready going joined =>
    refine ⟨ready, by simp [Progress.settledWith], _, _, rfl, rfl, ?_, ?_⟩
    · simpa [Run.world, Progress.settledWith] using joined.recorded
    · rw [Option.getD_some, intervals_ofCalls_eq kept]
      obtain ⟨length, accounts, -⟩ := joined.settled outcomes rfl
      refine .joined q.orchestrator.phaseLimits outcomes going length ?_ ?_
      · simpa [Run.world, Progress.settledWith, Progress.requestOf] using accounts
      · simpa [Run.world, Progress.settledWith, Progress.requestOf] using joined.ledger
  | again cleanup => exact absurd cleanup busy
  | cleaned _ _ cleanup => exact absurd cleanup busy

/-- Collection makes the raw stream: what its calls handed over, merged with all that waited. -/
theorem collected {dir : String} {window : Window}
    (h : Asked (.collect dir window) q (.ok ()) q') :
    q.orchestrator.state.rank = 1 ∧ q'.orchestrator.state.rank = 2 ∧
      q'.scene.recorder.queue = [] ∧ ∃ yields new,
        Yielded q.orchestrator.observers (.collection dir window) q q' yields ∧
        q'.world.accepted = q.world.accepted ++ new ∧
        Timeline.StableSort ⟨q.scene.recorder.queue ++ new ++ yields⟩ q'.orchestrator.raw := by
  obtain ⟨ready, settled, settlement, p, rfl, -, ⟨new, queue, accepted⟩, yielded⟩ :=
    h.returned (.inl rfl)
  have next := ready.rank_settled nofun
  have rank : Phase.collection.settled.rank = 2 := rfl
  refine ⟨?_, by rw [settled]; rfl, rfl, _, new, yielded, accepted, ?_⟩
  · rw [Command.phase, rank] at next
    omega
  · rw [← queue]
    exact Timeline.stableSort_sort _

/-- Construction makes the final stream of the raw one, of what its calls handed over and of what
waited. -/
theorem constructed {resources : Resources} {window : Window}
    (h : Asked (.construct resources window) q (.ok ()) q') :
    q.orchestrator.state.rank = 2 ∧ q'.orchestrator.state.rank = 3 ∧ ∃ derived new,
      Yielded q.orchestrator.observers (.construction q.orchestrator.raw resources window) q q'
        derived ∧
      q'.world.accepted = q.world.accepted ++ new ∧
      Timeline.StableSort (q.orchestrator.raw ++ ⟨derived⟩ ++ ⟨q.scene.recorder.queue ++ new⟩)
        q'.orchestrator.final := by
  obtain ⟨ready, settled, settlement, p, rfl, raw, ⟨new, queue, accepted⟩, yielded⟩ :=
    h.returned (.inr rfl)
  have next := ready.rank_settled nofun
  have rank : Phase.construction.settled.rank = 3 := rfl
  refine ⟨?_, by rw [settled]; rfl, _, new, yielded, accepted, ?_⟩
  · rw [Command.phase, rank] at next
    omega
  · rw [← queue, ← raw]
    exact Timeline.stableSort_sort _

end Asked

/-- What is certain of the raw stream of a run `q` that was collected from `start`, when the
observers handed over `yields`. -/
structure RawStream (observers : List Registration) (call : Call) (start q : Run)
    (yields : List Interval) : Prop where
  /-- These are the intervals that the observers handed over. -/
  yielded : Yielded observers call start q yields
  /-- The raw stream is the stable order of what the recorder let in and of `yields`. -/
  sorted : Timeline.StableSort ⟨q.world.accepted ++ yields⟩ q.orchestrator.raw
  /-- It never changes, whatever happens to the run. -/
  kept : ∀ more, (q.after more).orchestrator.raw = q.orchestrator.raw
  /-- Every call of construction is given it, and nothing else. -/
  given : ∀ more, ∀ e ∈ (q.after more).world.ledger, ∀ starting resources window,
    e.1.call = .construction starting resources window → starting = q.orchestrator.raw

/-- What is certain of the final stream of a run `r` that was constructed from `p`, after it was
collected at `q`, where the observers had handed over `yields`. -/
structure FinalStream (observers : List Registration) (call : Call) (q p r : Run)
    (yields : List Interval) : Prop where
  /-- The final stream is the stable order of what the raw stream was made of, what the observers
  derived and what the recorder let in since collection. -/
  sorted : ∃ derived received, Yielded observers call p r derived ∧
    r.world.accepted = q.world.accepted ++ received ∧
    Timeline.StableSort ⟨q.world.accepted ++ yields ++ derived ++ received⟩ r.orchestrator.final
  /-- It never changes, and it is what the report has. -/
  kept : ∀ more, (r.after more).orchestrator.final = r.orchestrator.final ∧
    (r.after more).orchestrator.report.intervals = r.orchestrator.final
  /-- Every call of evaluation and storage is given it. -/
  given : ∀ more, ∀ e ∈ (r.after more).world.ledger,
    Given q.orchestrator.raw r.orchestrator.final e.1.call

theorem rawStream_of_collected {start q : Run} (fed : Fed start)
    (waits : start.orchestrator.state.rank < 2 →
      start.scene.recorder.queue = start.world.accepted) {dir : String} {window : Window}
    (asked : Asked (.collect dir window) start (.ok ()) q) :
    q.orchestrator.state.rank = 2 ∧ q.scene.recorder.queue = [] ∧
      ∃ yields,
        RawStream start.orchestrator.observers (.collection dir window) start q yields := by
  obtain ⟨one, two, drained, yields, new, yielded, accepted, sorted⟩ := asked.collected
  have past : 2 ≤ q.orchestrator.state.rank := by omega
  refine ⟨two, drained, yields, yielded, ?_, fun more => (raw_after past more).2, ?_⟩
  · rw [accepted, ← waits (by omega)]
    exact sorted
  · intro more e he starting resources window call
    have given := ((fed.asks asked).after more).given e he
    rw [call, (raw_after past more).2] at given
    exact given

theorem finalStream_of_constructed {start q p r : Run} {collection : Call}
    {observers : List Registration} {yields : List Interval} {resources : Resources}
    {window : Window} (raw : RawStream observers collection start q yields) (fed : Fed p)
    (same : p.orchestrator.raw = q.orchestrator.raw)
    (accepted : p.orchestrator.state.rank < 3 →
      p.world.accepted = q.world.accepted ++ p.scene.recorder.queue)
    (asked : Asked (.construct resources window) p (.ok ()) r) :
    FinalStream p.orchestrator.observers (.construction q.orchestrator.raw resources window) q p r
      yields := by
  obtain ⟨two, three, derived, new, yielded, accepted', sorted⟩ := asked.constructed
  have past : 3 ≤ r.orchestrator.state.rank := by omega
  rw [same] at yielded sorted
  refine ⟨⟨derived, p.scene.recorder.queue ++ new, yielded, ?_, ?_⟩, fun more => ?_, ?_⟩
  · rw [accepted', accepted (by omega), List.append_assoc]
  -- The raw stream went into the final one in order, but as it was made of its parts.
  · have whole : q.orchestrator.raw ++ ⟨derived⟩ ++ ⟨p.scene.recorder.queue ++ new⟩ =
        (q.orchestrator.raw ++ ⟨derived ++ (p.scene.recorder.queue ++ new)⟩ : Timeline) :=
      congrArg Timeline.mk (List.append_assoc ..)
    rw [whole] at sorted
    have merged := sorted.of_append_sort raw.sorted
    rw [List.append_assoc]
    exact merged
  · exact ⟨(final_after past more).2, (final_after past more).2⟩
  · intro more e he
    have given := ((fed.asks asked).after more).given e he
    rw [(raw_after (Nat.le_of_succ_le past) more).2, (final_after past more).2,
      asked.raw_eq (by omega), same] at given
    exact given

/-- The streams of intervals, whatever was asked for before, in between and later, however the calls
come out and whenever the run is cancelled: `RawStream` once collection returns, and `FinalStream`
once construction does. -/
theorem exact_streams (runId : String) (registry : Registry) (limits : Limits) (origin : Nat)
    (before : List Act) (dir : String) (window : Window) (slots : List Slot)
    (free : ((Run.new runId registry limits origin).after before).isFree = true)
    (returned :
      (((Run.new runId registry limits origin).after before).ask (.collect dir window) slots).1 =
        .ok ()) :
    let start := (Run.new runId registry limits origin).after before
    let q := (start.ask (.collect dir window) slots).2
    ∃ yields, RawStream registry.entries (.collection dir window) start q yields ∧
      ∀ (between : List Act) (resources : Resources) (window' : Window) (slots' : List Slot),
        let p := q.after between
        p.isFree = true → (p.ask (.construct resources window') slots').1 = .ok () →
        FinalStream registry.entries (.construction q.orchestrator.raw resources window') q p
          (p.ask (.construct resources window') slots').2 yields := by
  intro start q
  have observers (acts : List Act) :
      ((Run.new runId registry limits origin).after acts).orchestrator.observers =
        registry.entries := by
    obtain ⟨made, traced⟩ := traced_after runId registry limits origin acts
    exact traced.observers_eq
  have fed := ((Fed.new runId registry limits origin).after before).rests (rests_stand free slots)
  have asked := asked_of_ask (Prod.ext returned (Eq.refl q))
  obtain ⟨two, drained, yields, raw⟩ :=
    rawStream_of_collected fed (queue_eq_accepted runId registry limits origin before) asked
  refine ⟨yields, ?_, ?_⟩
  · rw [← observers before]
    exact { raw with yielded := raw.yielded.of_stand }
  · intro between resources window' slots' p free' returned'
    -- Seen from the start, the run between the two commands is one run with longer acts.
    have reached : p = (Run.new runId registry limits origin).after
        (before ++ [.command (.collect dir window) slots] ++ between) := by
      rw [Run.after_append, Run.after_concat, Run.act_command free]
    have kept := raw.kept between
    have accepted := accepted_after (Nat.le_of_eq two.symm) drained between
    have fed' := ((fed.asks asked).after between).rests (rests_stand free' slots')
    have asked' := asked_of_ask (Prod.ext returned' (Eq.refl _))
    have final := finalStream_of_constructed raw fed' kept accepted asked'
    obtain ⟨derived, received, yielded, same, sorted⟩ := final.sorted
    rw [← observers (before ++ [.command (.collect dir window) slots] ++ between), ← reached]
    exact { final with sorted := ⟨derived, received, yielded.of_stand, same, sorted⟩ }

def tieRegistry : Registry where
  entries := [⟨"a", "x"⟩, ⟨"b", "y"⟩]
  distinct := by decide
  named := by decide

def tie : Interval := .opened ⟨7⟩ "c" "recorder" "first"

/-- The first observer hands over an interval that starts together with `tie`, and an earlier one.
The second observer fails. -/
def tieEndings : List Ending :=
  [.returned { intervals := [.opened ⟨7⟩ "c" "a" "second", .opened ⟨3⟩ "c" "a" "third"] },
   .failed .emptyName]

/-- The interval `tie` is recorded before setup, and one after collection. -/
theorem exact_streams_of_tie :
    let start := (Run.new "" tieRegistry ⟨.ofSecs 60, .ofSecs 60, .ofSecs 5⟩ 0).after
      [.beside (.record tie),
       .command (.setup ⟨"", none, none, none, none, false⟩) (served 0 tieEndings)]
    let q := (start.ask (.collect "" default) (served 1 tieEndings)).2
    let p := q.after [.beside (.record tie)]
    ∃ yields,
      RawStream tieRegistry.entries (.collection "" default) start q yields ∧
      FinalStream tieRegistry.entries (.construction q.orchestrator.raw .empty default) q p
        (p.ask (.construct .empty default) (served 2 tieEndings)).2 yields := by
  obtain ⟨yields, raw, final⟩ := exact_streams "" tieRegistry ⟨.ofSecs 60, .ofSecs 60, .ofSecs 5⟩ 0
    [.beside (.record tie),
     .command (.setup ⟨"", none, none, none, none, false⟩) (served 0 tieEndings)]
    "" default (served 1 tieEndings) (by decide) (by decide +kernel)
  exact ⟨yields, raw, final [.beside (.record tie)] .empty default (served 2 tieEndings)
    (by decide +kernel) (by decide +kernel)⟩

end Schedule
end Vigil
