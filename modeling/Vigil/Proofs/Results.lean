import Mathlib.Data.List.Nodup
import Vigil.Proofs.PhaseTrace

/-!
# Which records a run makes

The records of a run are those of its calls, round by round and within a round in the order of the
observers: what a call returned in a phase whose records are kept, and one failing record for a call
that did not return. No record is lost, made up or put in the name of another observer.

The module introduces:

* `recordsOfCall` and `recordsOfRound`, the records of a call and of a round;
* `Booked`, the invariant of runs, and `ExactResults`, what follows from it;
* `Counts.tally_eq` and `filter_sources_perm`, on the tally of records and on their sources.
-/

namespace Vigil

/-- The records of one call: those that it returned in a phase whose records are kept, in the name
of `observer` and its owner, or one failing record. -/
def recordsOfCall (phase : Phase) (observer : Registration) : CallOutcome → List Record
  | .returned yield =>
    if phase = .collection ∨ phase = .evaluation then
      yield.records.map fun record =>
        { record with source := observer.name, owner := observer.owner }
    else []
  | outcome =>
    [{ name := "[" ++ observer.owner ++ "] invariant test " ++ observer.name ++ " " ++ phase.label
       owner := observer.owner
       source := observer.name
       verdict := .fail
       failure := (outcome.failure? phase).map Prod.snd
       output := none }]

theorem records_ofCall (phase : Phase) (observer : Registration) (outcome : CallOutcome) :
    (Settlement.ofCall phase observer outcome).records =
      recordsOfCall phase observer outcome := by
  cases outcome with
  | returned yield => cases phase <;> simp [Settlement.ofCall, recordsOfCall, Yield.keptBy,
      Record.attributedTo]
  | failed | panicked | timedOut | abandoned => rfl

theorem attributed_of_mem_recordsOfCall {phase : Phase} {observer : Registration}
    {outcome : CallOutcome} {record : Record} (h : record ∈ recordsOfCall phase observer outcome) :
    record.source = observer.name ∧ record.owner = observer.owner := by
  cases outcome with
  | returned yield =>
    simp only [recordsOfCall] at h
    split at h
    · obtain ⟨-, -, rfl⟩ := List.mem_map.1 h
      exact ⟨rfl, rfl⟩
    · cases h
  | failed | panicked | timedOut | abandoned =>
    obtain rfl := List.mem_singleton.1 h
    exact ⟨rfl, rfl⟩

/-- The observers of a round with the outcomes of their calls. There are none as long as the
outcomes were not taken over. -/
def outcomesOfRound (request : JoinRequest) (outcomes : Option (List CallOutcome)) :
    List (Registration × CallOutcome) :=
  request.targets.zip (outcomes.getD [])

/-- The records of the calls of `request`, in the order of the observers. -/
def recordsOfRound (request : JoinRequest) (outcomes : Option (List CallOutcome)) : List Record :=
  (outcomesOfRound request outcomes).flatMap fun c => recordsOfCall request.call.phase c.1 c.2

@[simp]
theorem recordsOfRound_none (request : JoinRequest) : recordsOfRound request none = [] := by
  simp [recordsOfRound, outcomesOfRound]

theorem records_ofCalls_eq (request : JoinRequest) (outcomes : List CallOutcome) :
    (Settlement.ofCalls request.call.phase request.targets outcomes).records =
      recordsOfRound request (some outcomes) := by
  rw [Settlement.records_ofCalls]
  simp only [records_ofCall, recordsOfRound, outcomesOfRound, Option.getD_some]

theorem attributed_of_mem_recordsOfRound {request : JoinRequest}
    {outcomes : Option (List CallOutcome)} {record : Record}
    (h : record ∈ recordsOfRound request outcomes) :
    ∃ observer ∈ request.targets,
      record.source = observer.name ∧ record.owner = observer.owner := by
  obtain ⟨⟨observer, outcome⟩, called, made⟩ := List.mem_flatMap.1 h
  exact ⟨observer, (List.of_mem_zip called).1, attributed_of_mem_recordsOfCall made⟩

theorem filter_recordsOfRound (request : JoinRequest) (outcomes : Option (List CallOutcome))
    (name : String) :
    (recordsOfRound request outcomes).filter (fun record => record.source == name) =
      ((outcomesOfRound request outcomes).filter fun c => c.1.name == name).flatMap
        fun c => recordsOfCall request.call.phase c.1 c.2 := by
  rw [recordsOfRound]
  induction outcomesOfRound request outcomes with
  | nil => rfl
  | cons c calls ih =>
    rw [List.flatMap_cons, List.filter_append, ih, List.filter_cons]
    -- All records of a call are in the name of its observer, so it keeps all of them or none.
    by_cases own : c.1.name = name
    · have all : (recordsOfCall request.call.phase c.1 c.2).filter
          (fun record => record.source == name) = recordsOfCall request.call.phase c.1 c.2 := by
        refine List.filter_eq_self.2 fun record made => ?_
        simp [(attributed_of_mem_recordsOfCall made).1, own]
      simp [own, all]
    · have none : (recordsOfCall request.call.phase c.1 c.2).filter
          (fun record => record.source == name) = [] := by
        refine List.filter_eq_nil_iff.2 fun record made => ?_
        simp [(attributed_of_mem_recordsOfCall made).1, own]
      simp [own, none]

namespace Counts

theorem foldl_add (records : List Record) (c : Counts) :
    records.foldl add c =
      ⟨c.passed + records.countP fun record => record.verdict == .pass,
        c.failed + records.countP fun record => record.verdict == .fail,
        c.flaked + records.countP fun record => record.verdict == .flake⟩ := by
  induction records generalizing c with
  | nil => rfl
  | cons record records ih =>
    rw [List.foldl_cons, ih]
    cases h : record.verdict <;> simp [add, h, Nat.add_assoc, Nat.add_comm 1]

theorem tally_eq (records : List Record) :
    tally records =
      ⟨records.countP fun record => record.verdict == .pass,
        records.countP fun record => record.verdict == .fail,
        records.countP fun record => record.verdict == .flake⟩ := by
  rw [tally, foldl_add]
  simp

end Counts

/-- The records whose source is one of `names`, name by name, are those records up to their
order. -/
theorem filter_sources_perm {names : List String} (distinct : names.Nodup)
    (records : List Record) :
    (names.flatMap fun name => records.filter fun record => record.source == name).Perm
      (records.filter fun record => decide (record.source ∈ names)) := by
  induction names with
  | nil => simp
  | cons name names ih =>
    obtain ⟨fresh, distinct⟩ := List.nodup_cons.1 distinct
    rw [List.flatMap_cons]
    -- The records of the other sources are those that are left once this source is taken out.
    have here : (records.filter fun record => decide (record.source ∈ name :: names)).filter
        (fun record => record.source == name) =
        records.filter fun record => record.source == name := by
      rw [List.filter_filter]
      refine List.filter_congr fun record _ => ?_
      by_cases same : record.source = name <;> simp [same]
    have others : (records.filter fun record => decide (record.source ∈ name :: names)).filter
        (fun record => !(record.source == name)) =
        records.filter fun record => decide (record.source ∈ names) := by
      rw [List.filter_filter]
      refine List.filter_congr fun record _ => ?_
      by_cases same : record.source = name <;> simp [same, fresh]
    refine (List.Perm.append_left _ (ih distinct)).trans ?_
    rw [← here, ← others]
    exact List.filter_append_perm _ _

namespace Schedule

/-- The records of the rounds of the world `w`, round by round. -/
def World.records (w : World) : List Record := w.ledger.flatMap fun e => recordsOfRound e.1 e.2

theorem Joined.records {request : JoinRequest} {s s' : Stage}
    {outcomes : Option (List CallOutcome)} (h : Joined request s outcomes s') :
    s'.inner.records = s.inner.records ++ recordsOfRound request outcomes := by
  simp [World.records, h.ledger]

/-- The run `r` has booked the outcomes of its calls: the invariant that ties its results to its
rounds. -/
structure Booked (r : Run) : Prop where
  /-- The records are those of the rounds. -/
  results : r.orchestrator.results = r.world.records
  /-- Every call of a round has one outcome, which accounts for it. -/
  accounts : ∀ n request outcomes, r.world.ledger[n]? = some (request, some outcomes) →
    outcomes.length = request.targets.length ∧ AccountsFor request.limits r.world n outcomes
  /-- No outcomes are missing while the run can be asked for something. -/
  settled : r.isFree = true → ∀ e ∈ r.world.ledger, e.2.isSome = true

namespace Booked

variable {q q' : Run}

theorem new (runId : String) (registry : Registry) (limits : Limits) (origin : Nat) :
    Booked (Run.new runId registry limits origin) where
  results := rfl
  accounts n _ _ h := by simp [Run.world, Run.new, Progress.new, World.ledger] at h
  settled _ _ h := by simp [Run.world, Run.new, Progress.new, World.ledger] at h

theorem rests (h : Booked q) (rests : Rests q q') : Booked q' where
  results := by
    rw [rests.orchestrator, h.results, World.records, World.records]
    exact congrArg (List.flatMap _) rests.drift.world.ledger.symm
  accounts n request outcomes he := by
    rw [show q'.world.ledger = q.world.ledger from rests.drift.world.ledger] at he
    obtain ⟨length, accounts⟩ := h.accounts n request outcomes he
    exact ⟨length, accounts.later rests.drift.world.keeps⟩
  settled free e he := by
    rw [show q'.world.ledger = q.world.ledger from rests.drift.world.ledger] at he
    refine h.settled ?_ e he
    rw [Run.isFree, ← rests.standing]
    exact free

theorem length_outcomes (h : Booked q) {e : JoinRequest × Option (List CallOutcome)}
    (he : e ∈ q.world.ledger) : (e.2.getD []).length ≤ e.1.targets.length := by
  obtain ⟨request, _ | outcomes⟩ := e
  · exact Nat.zero_le _
  · obtain ⟨n, hn⟩ := List.mem_iff_getElem?.1 he
    exact Nat.le_of_eq (h.accounts n request outcomes hn).1

/-- The outcomes of a round that was joined account for its calls, and those of the rounds before
still do. -/
theorem accounts_joined (h : Booked q) {request : JoinRequest} {s s' : Stage}
    {outcomes : Option (List CallOutcome)} (before : s.inner = q.world)
    (joined : Joined request s outcomes s') (n : Nat) (request' : JoinRequest)
    (outcomes' : List CallOutcome) (he : s'.inner.ledger[n]? = some (request', some outcomes')) :
    outcomes'.length = request'.targets.length ∧
      AccountsFor request'.limits s'.inner n outcomes' := by
  rw [joined.ledger] at he
  -- The entry is an earlier one, the one of this round, or beyond the end.
  rcases Nat.lt_trichotomy n s.inner.ledger.length with lt | last | gt
  · rw [List.getElem?_append_left lt, before] at he
    obtain ⟨length, accounts⟩ := h.accounts n request' outcomes' he
    rw [← before] at accounts
    exact ⟨length, accounts.later joined.earlier⟩
  · rw [last, List.getElem?_concat_length] at he
    cases he
    obtain ⟨length, accounts, -⟩ := joined.settled outcomes' rfl
    rw [last, s.inner.length_ledger]
    exact ⟨length, accounts⟩
  · rw [List.getElem?_eq_none (by simp; simp at gt; omega)] at he
    cases he

theorem results_joined (h : Booked q) {c : Command} {outcomes : List CallOutcome} {scene : Stage}
    (joined : Joined (q.requestOf (c.call q)) (q.sceneOf c.phase) (some outcomes) scene) :
    (q.settledWith (c.call q) outcomes scene).orchestrator.results = scene.inner.records := by
  have round := records_ofCalls_eq (q.requestOf (c.call q)) outcomes
  rw [joined.records, ← round, Progress.inner_sceneOf]
  exact congrArg (· ++ _) h.results

theorem results_cleaned (h : Booked q) {outcomes : List CallOutcome} {scene : Stage}
    (joined :
      Joined (q.orchestrator.cleanupRequest q.scene.started) q.scene (some outcomes) scene) :
    (q.cleanedWith outcomes scene).orchestrator.results = scene.inner.records := by
  have round := records_ofCalls_eq (q.orchestrator.cleanupRequest q.scene.started) outcomes
  rw [joined.records, ← round]
  exact congrArg (· ++ _) h.results

theorem results_unjoined (h : Booked q) {request : JoinRequest} {s s' : Stage}
    (before : s.inner = q.world) (joined : Joined request s none s') :
    q.orchestrator.results = s'.inner.records := by
  rw [joined.records, before, recordsOfRound_none, List.append_nil, h.results]

/-- A command books the outcomes of its calls: the step lemma of `Booked`. -/
theorem asks (h : Booked q) (free : q.isFree = true) {c : Command} {answer : Except Halt Unit}
    (asked : Asked c q answer q') : Booked q' where
  results := by
    cases asked with
    | refused => exact h.results
    | skipped => simpa [Progress.begun, Run.world] using h.results
    | unjoined scene _ _ _ joined => exact h.results_unjoined (q.inner_sceneOf c.phase) joined
    | joined outcomes scene _ _ _ joined =>
      simpa [Run.world, Progress.settledWith] using h.results_joined joined
    | again => exact h.results
    | uncleaned scene _ _ joined => exact h.results_unjoined rfl joined
    | cleaned outcomes scene _ _ joined => exact h.results_cleaned joined
  accounts := by
    rcases asked.world with same | ⟨request, s, outcomes, s', before, joined, after⟩
    · rw [same]
      exact h.accounts
    · rw [after]
      exact h.accounts_joined before joined
  settled := by
    rcases asked.world with same | ⟨request, s, outcomes, s', before, joined, after⟩
    · rw [same]
      exact fun _ => h.settled free
    · -- A round is settled once its join has returned, and the run is free only then.
      intro free' e he
      rw [after, joined.ledger, before, List.mem_append, List.mem_singleton] at he
      rcases he with he | rfl
      · exact h.settled free e he
      · refine joined.free.1 ?_
        rw [← after]
        exact of_decide_eq_true free'

end Booked

/-- Every run has booked the outcomes of its calls, whatever `acts` have happened to it. -/
theorem booked_after (runId : String) (registry : Registry) (limits : Limits) (origin : Nat)
    (acts : List Act) :
    Booked ((Run.new runId registry limits origin).after acts) :=
  Run.after_invariant (.new runId registry limits origin) (fun h rests => h.rests rests)
    (fun h free asked => h.asks free asked) acts

theorem results_prefix_after (r : Run) (acts : List Act) :
    r.orchestrator.results <+: (r.after acts).orchestrator.results := by
  refine Run.after_invariant
    (motive := fun q => r.orchestrator.results <+: q.orchestrator.results)
    (List.prefix_refl _) ?_ ?_ acts
  · intro q q' h rests
    rw [rests.orchestrator]
    exact h
  · intro q q' c answer h _ asked
    cases asked with
    | refused | unjoined | again | uncleaned => exact h
    | skipped => simpa [Progress.begun] using h
    | joined =>
      rw [Command.results_settle]
      exact h.trans (List.prefix_append _ _)
    | cleaned => exact h.trans (List.prefix_append _ _)

/-- What is certain of the records of a run `r` with the observers of `registry`. -/
structure ExactResults (registry : Registry) (r : Run) : Prop where
  /-- The records are those of the calls, round by round and in the order of the observers: neither
  fewer nor more. -/
  exact : r.orchestrator.results = r.world.ledger.flatMap fun e => recordsOfRound e.1 e.2
  /-- The rounds are in the order of the phases. -/
  phases : List.Sublist (r.world.ledger.map fun e => e.1.call.phase) Phase.all
  /-- All observers are called in a round, in their order, but for a cleanup before which there was
  no setup. -/
  targets : ∀ e ∈ r.world.ledger,
    e.1.targets = registry.entries ∨ e.1.call.phase = .cleanup ∧ e.1.targets = []
  /-- Every call of a round has one outcome, which says what became of it. -/
  accounts : ∀ n request outcomes, r.world.ledger[n]? = some (request, some outcomes) →
    outcomes.length = request.targets.length ∧ AccountsFor request.limits r.world n outcomes
  /-- No outcomes are missing while the run can be asked for something. -/
  settled : r.isFree = true → ∀ e ∈ r.world.ledger, e.2.isSome = true
  /-- Records are only ever added, at the end, whatever happens to the run. -/
  grows : ∀ more, r.orchestrator.results <+: (r.after more).orchestrator.results
  /-- Every record is in the name of exactly one observer of `registry`, whose owner it names. -/
  attributed : ∀ record ∈ r.orchestrator.results, ∃ observer ∈ registry.entries,
    record.source = observer.name ∧ record.owner = observer.owner ∧
      ∀ other ∈ registry.entries, other.name = record.source → other = observer
  /-- The records in the name of an observer are those of its own calls. -/
  own : ∀ name, r.orchestrator.report.resultsFrom name = r.world.ledger.flatMap fun e =>
    ((outcomesOfRound e.1 e.2).filter fun c => c.1.name == name).flatMap
      fun c => recordsOfCall e.1.call.phase c.1 c.2
  /-- Each record is found under exactly one registered name. -/
  partition : (registry.names.flatMap r.orchestrator.report.resultsFrom).Perm
    r.orchestrator.results
  /-- The report has the records and `Counts.tally` of them. -/
  report : (r.perform Conduct.intoReport).1 = .ok r.orchestrator.report ∧
    r.orchestrator.report.results = r.orchestrator.results ∧
    r.orchestrator.report.counts =
      ⟨r.orchestrator.results.countP fun record => record.verdict == .pass,
        r.orchestrator.results.countP fun record => record.verdict == .fail,
        r.orchestrator.results.countP fun record => record.verdict == .flake⟩

/-- The records of every run are exactly those of its calls (`ExactResults`), whatever is asked of
it and however the calls come out. -/
theorem exact_results (runId : String) (registry : Registry) (limits : Limits) (origin : Nat)
    (acts : List Act) :
    ExactResults registry ((Run.new runId registry limits origin).after acts) := by
  have booked := booked_after runId registry limits origin acts
  have phases := phases_sublist runId registry limits origin acts
  obtain ⟨made, traced⟩ := traced_after runId registry limits origin acts
  generalize (Run.new runId registry limits origin).after acts = r at booked phases traced
  -- Every call is one of a registered observer, and so every record is in a registered name.
  have targets (e) (he : e ∈ r.world.ledger) :
      e.1.targets = registry.entries ∨ e.1.call.phase = .cleanup ∧ e.1.targets = [] :=
    (traced.targets (List.mem_map_of_mem he)).imp_right fun h => ⟨h.1, h.2.2⟩
  have attributed (record) (h : record ∈ r.orchestrator.results) :
      ∃ observer ∈ registry.entries,
        record.source = observer.name ∧ record.owner = observer.owner := by
    rw [booked.results, World.records] at h
    obtain ⟨e, he, made⟩ := List.mem_flatMap.1 h
    obtain ⟨observer, called, named⟩ := attributed_of_mem_recordsOfRound made
    rcases targets e he with all | ⟨-, none⟩
    · exact ⟨observer, all ▸ called, named⟩
    · simp [none] at called
  exact
    { exact := booked.results
      phases := phases
      targets := targets
      accounts := booked.accounts
      settled := booked.settled
      grows := results_prefix_after r
      attributed := fun record h => by
        obtain ⟨observer, registered, source, owner⟩ := attributed record h
        refine ⟨observer, registered, source, owner, fun other registered' same => ?_⟩
        exact List.inj_on_of_nodup_map registry.distinct registered' registered
          (same.trans source)
      own := fun name => by
        change r.orchestrator.results.filter _ = _
        rw [booked.results, World.records, List.filter_flatMap]
        simp only [filter_recordsOfRound]
      partition := by
        refine (filter_sources_perm registry.distinct r.orchestrator.results).trans ?_
        rw [List.filter_eq_self.2]
        intro record h
        obtain ⟨observer, registered, source, -⟩ := attributed record h
        exact decide_eq_true (source ▸ List.mem_map_of_mem registered)
      report := ⟨rfl, rfl, Counts.tally_eq _⟩ }

end Schedule
end Vigil
