import Mathlib.Data.List.Count
import Vigil.Proofs.Recording
import Vigil.Proofs.Schedule.Whole

/-!
# Metrics and reports

Metrics are emitted wherever something happens: when an orchestrator is made, when calls are
settled, when a phase or a cleanup is over, when the final stream is merged and when the report is
made. Put together they say what the report says, whatever the observers do, whatever is asked for
in whatever order and whenever the run is cancelled.

The module introduces:

* `Metrics.samples` and `Metrics.reading`, what was emitted for a series and what the metrics that
  were put together say of it;
* `failuresOfRound`, the failures among the calls of a round;
* `Schedule.Metered`, what a run has emitted so far, and `Schedule.MetricsAgree`, what follows for
  its report.
-/

namespace Vigil

namespace Metrics

variable (emissions : List Emission) (s : Series)

/-- The values that were emitted for the series `s`, in their order. -/
def samples : List Nat := (emissions.filter fun e => e.series == s).map Emission.value

/-- What the metrics that were put together say of the series `s`: the total of a counter, the last
value of a gauge, all samples of a histogram. -/
def reading : List Nat := ((gather emissions).lookup s).getD []

/-- The total of the counter `s`, which is zero as long as nothing was emitted for it. -/
def total : Nat := (reading emissions s).headD 0

theorem samples_append (first rest : List Emission) :
    samples (first ++ rest) s = samples first s ++ samples rest s := by
  simp [samples]

theorem samples_flatMap {α : Type} (l : List α) (f : α → List Emission) :
    samples (l.flatMap f) s = l.flatMap fun a => samples (f a) s := by
  simp [samples, List.filter_flatMap, List.map_flatMap]

theorem length_samples :
    (samples emissions s).length = (emissions.map Emission.series).count s := by
  rw [samples, List.length_map, List.count_eq_countP, List.countP_map,
    List.countP_eq_length_filter]
  rfl

theorem lookup_map (found : List (Series × List Nat)) (change : Series → List Nat → List Nat) :
    (found.map fun f => (f.1, change f.1 f.2)).lookup s = (found.lookup s).map (change s) := by
  induction found with
  | nil => rfl
  | cons f found ih =>
    obtain ⟨t, values⟩ := f
    by_cases here : s = t
    · subst here
      simp
    · have apart : (s == t) = false := beq_false_of_ne here
      rw [List.map_cons, List.lookup_cons, List.lookup_cons, apart]
      exact ih

theorem any_eq_isSome_lookup (found : List (Series × List Nat)) :
    (found.any fun f => f.1 == s) = (found.lookup s).isSome := by
  induction found with
  | nil => rfl
  | cons f found ih =>
    obtain ⟨t, values⟩ := f
    by_cases here : s = t
    · simp [here]
    · have apart : (s == t) = false := beq_false_of_ne here
      have other : (t == s) = false := beq_false_of_ne (Ne.symm here)
      rw [List.any_cons, List.lookup_cons, apart, ih, other, Bool.false_or]

/-- Another emission changes its own series and no other one: the step lemma of `reading`. -/
theorem reading_concat (e : Emission) :
    reading (emissions ++ [e]) s =
      if s = e.series then combine s.metric.kind (reading emissions s) e.value
      else reading emissions s := by
  -- The readings are a fold, so the last emission is combined with what the others have left.
  have gathered : gather (emissions ++ [e]) =
      if (gather emissions).any fun f => f.1 == e.series then
        (gather emissions).map fun f =>
          if f.1 == e.series then (f.1, combine f.1.metric.kind f.2 e.value) else f
      else gather emissions ++ [(e.series, combine e.series.metric.kind [] e.value)] := by
    rw [gather, List.foldl_append]
    rfl
  unfold reading
  rw [gathered]
  generalize gather emissions = found
  -- Either the series has a reading already, or it gets its first one.
  rw [any_eq_isSome_lookup]
  cases known : found.lookup e.series with
  | some values =>
    let change (t : Series) (values : List Nat) : List Nat :=
      if t == e.series then combine t.metric.kind values e.value else values
    have changed : (found.map fun f =>
        if f.1 == e.series then (f.1, combine f.1.metric.kind f.2 e.value) else f) =
        found.map fun f => (f.1, change f.1 f.2) := by
      refine List.map_congr_left fun f _ => ?_
      simp only [change]
      split <;> rfl
    rw [Option.isSome_some, if_pos rfl, changed, lookup_map]
    by_cases same : s = e.series
    · subst same
      simp [known, change]
    · have apart : (s == e.series) = false := beq_false_of_ne same
      simp [same, change]
  | none =>
    rw [Option.isSome_none, if_neg Bool.false_ne_true, List.lookup_append]
    by_cases same : s = e.series
    · subst same
      simp [known]
    · have apart : (s == e.series) = false := beq_false_of_ne same
      simp [same, List.lookup_cons, apart]

/-- The values of a series are put together one after the other, by induction on the emissions. -/
theorem reading_eq_foldl :
    reading emissions s = (samples emissions s).foldl (combine s.metric.kind) [] := by
  induction emissions using List.reverseRecOn with
  | nil => rfl
  | append_singleton emissions e ih =>
    rw [reading_concat, samples_append, List.foldl_append, ← ih]
    by_cases same : s = e.series
    · simp [samples, same]
    · simp [samples, same, beq_false_of_ne (Ne.symm same)]

/-- The total of a counter adds up what was emitted for its series, by `reading_eq_foldl`. -/
theorem total_of_counter (counter : s.metric.kind = .counter) :
    total emissions s = (samples emissions s).foldl Nat.add 0 := by
  rw [total, reading_eq_foldl, counter]
  induction samples emissions s using List.reverseRecOn with
  | nil => rfl
  | append_singleton values value ih =>
    rw [List.foldl_append, List.foldl_append, ← ih]
    -- A counter holds one value at most.
    have one : ∀ held : List Nat, held.length ≤ 1 →
        (combine .counter held value).headD 0 = held.headD 0 + value := by
      intro held short
      match held with
      | [] => exact (Nat.zero_add value).symm
      | [n] => exact Nat.add_comm value n
      | _ :: _ :: _ => simp at short
    refine one _ ?_
    induction values using List.reverseRecOn with
    | nil => exact Nat.zero_le 1
    | append_singleton => rw [List.foldl_append]; exact Nat.le_refl 1

theorem reading_of_gauge (gauge : s.metric.kind = .gauge) :
    reading emissions s = (samples emissions s).getLast?.toList := by
  rw [reading_eq_foldl, gauge]
  induction samples emissions s using List.reverseRecOn with
  | nil => rfl
  | append_singleton values value ih => simp [combine]

theorem reading_of_histogram (histogram : s.metric.kind = .histogram) :
    reading emissions s = samples emissions s := by
  rw [reading_eq_foldl, histogram]
  induction samples emissions s using List.reverseRecOn with
  | nil => rfl
  | append_singleton values value ih => rw [List.foldl_append, ih]; rfl

/-! ## Emissions of one metric -/

/-- The emissions of one `metric`, in their order. -/
def only (metric : Metric) : List Emission :=
  emissions.filter fun e => e.series.metric == metric

@[simp]
theorem only_nil (metric : Metric) : only [] metric = [] := rfl

@[simp]
theorem only_append (first rest : List Emission) (metric : Metric) :
    only (first ++ rest) metric = only first metric ++ only rest metric :=
  List.filter_append ..

@[simp]
theorem only_cons (e : Emission) (metric : Metric) :
    only (e :: emissions) metric =
      if e.series.metric = metric then e :: only emissions metric else only emissions metric := by
  simp [only, List.filter_cons]

theorem samples_only : samples (only emissions s.metric) s = samples emissions s := by
  rw [samples, samples, only, List.filter_filter]
  congr 1
  refine List.filter_congr fun e _ => ?_
  by_cases same : e.series = s <;> simp [same]

end Metrics

open Metrics (Emission Series only)

/-! ## What a round emits -/

/-- The failure of one call, if it did not return, as an emission for its `phase` and its
`observer`. -/
def failureOfCall (phase : Phase) (observer : Registration) (outcome : CallOutcome) :
    List Emission :=
  (outcome.failure? phase).toList.map fun f =>
    Metrics.observerFailure observer.name phase.label f.1.name

theorem failures_ofCall (phase : Phase) (observer : Registration) (outcome : CallOutcome) :
    (Settlement.ofCall phase observer outcome).failures =
      failureOfCall phase observer outcome := by
  cases outcome <;> rfl

/-- The failures among the calls of `request`, in the order of the observers; there are none if the
calls were never joined. -/
def failuresOfRound (request : JoinRequest) (outcomes : Option (List CallOutcome)) :
    List Emission :=
  (outcomesOfRound request outcomes).flatMap fun c => failureOfCall request.call.phase c.1 c.2

theorem failures_ofCalls (request : JoinRequest) (outcomes : List CallOutcome) :
    (Settlement.ofCalls request.call.phase request.targets outcomes).failures =
      failuresOfRound request (some outcomes) := by
  rw [Settlement.flatMap_ofCalls Settlement.failures rfl (fun _ _ => rfl)]
  simp only [failures_ofCall, failuresOfRound, outcomesOfRound, Option.getD_some]

theorem FailureKind.name_injective : Function.Injective FailureKind.name := by
  intro kind other
  cases kind <;> cases other <;> decide

theorem Phase.label_injective : Function.Injective Phase.label := by
  intro phase other
  cases phase <;> cases other <;> decide

/-- A call counts once for the `kind` of its failure, and for no other kind. -/
theorem samples_failureOfCall (phase : Phase) (observer : Registration) (outcome : CallOutcome)
    (kind : FailureKind) :
    Metrics.samples (failureOfCall phase observer outcome)
        (Metrics.observerFailure observer.name phase.label kind.name).series =
      if (outcome.failure? phase).map Prod.fst = some kind then [1] else [] := by
  unfold failureOfCall
  cases outcome.failure? phase with
  | none => rfl
  | some f =>
    by_cases same : f.1 = kind
    · simp [Metrics.samples, Metrics.observerFailure, same]
    · have other : f.1.name ≠ kind.name := fun names => same (FailureKind.name_injective names)
      simp [Metrics.samples, Metrics.observerFailure, same, other]

theorem samples_failureOfCall_of_ne {phase : Phase} {observer : Registration} {name label : String}
    (other : observer.name ≠ name ∨ phase.label ≠ label) (outcome : CallOutcome) (kind : String) :
    Metrics.samples (failureOfCall phase observer outcome)
      (Metrics.observerFailure name label kind).series = [] := by
  unfold failureOfCall
  cases outcome.failure? phase with
  | none => rfl
  | some f =>
    have apart : (Metrics.observerFailure observer.name phase.label f.1.name).series ≠
        (Metrics.observerFailure name label kind).series := by
      intro same
      simp only [Metrics.observerFailure, Series.mk.injEq, List.cons.injEq, Prod.mk.injEq] at same
      obtain ⟨-, ⟨-, sameName⟩, ⟨-, sameLabel⟩, -⟩ := same
      exact other.elim (· sameName) (· sameLabel)
    simp [Metrics.samples, apart]

theorem flatMap_eq_flatMap_filter {α β : Type} {l : List α} {f : α → List β} (keep : α → Bool)
    (others : ∀ a ∈ l, keep a = false → f a = []) : l.flatMap f = (l.filter keep).flatMap f := by
  induction l with
  | nil => rfl
  | cons a l ih =>
    rw [List.flatMap_cons, ih fun b hb => others b (List.mem_cons_of_mem a hb), List.filter_cons]
    cases kept : keep a with
    | true => rfl
    | false => rw [others a List.mem_cons_self kept]; rfl

/-- The failures of a round count for each observer as its own call came out, since no two observers
share a name. -/
theorem samples_failuresOfRound {request : JoinRequest}
    (distinct : (request.targets.map Registration.name).Nodup)
    (outcomes : Option (List CallOutcome)) {j : Nat} {o : Registration}
    (called : request.targets[j]? = some o) (kind : FailureKind) :
    Metrics.samples (failuresOfRound request outcomes)
        (Metrics.observerFailure o.name request.call.phase.label kind.name).series =
      if ((outcomes.getD [])[j]?.bind fun outcome =>
        outcome.failure? request.call.phase).map Prod.fst = some kind then [1] else [] := by
  rw [failuresOfRound, Metrics.samples_flatMap, outcomesOfRound]
  -- Only the calls in the name of the observer count, and there is one at most.
  rw [flatMap_eq_flatMap_filter (fun c => c.1.name == o.name) fun c _ other =>
      samples_failureOfCall_of_ne (.inl (ne_of_beq_false other)) c.2 kind.name,
    Schedule.filter_zip_named distinct _ called]
  cases (outcomes.getD [])[j]? with
  | none => rfl
  | some outcome =>
    rw [Option.toList_some, List.map_singleton, List.flatMap_singleton, samples_failureOfCall]
    rfl

theorem recordsOfCall_of_failure {phase : Phase} {observer : Registration} {outcome : CallOutcome}
    {kind : FailureKind} {detail : String} (failed : outcome.failure? phase = some (kind, detail)) :
    recordsOfCall phase observer outcome = [failureRecord observer phase detail] := by
  cases outcome with
  | returned => cases failed
  | failed | panicked | timedOut | abandoned =>
    cases failed
    rfl

@[simp]
theorem failuresOfRound_none (request : JoinRequest) : failuresOfRound request none = [] := by
  simp [failuresOfRound, outcomesOfRound]

theorem only_failuresOfRound (request : JoinRequest) (outcomes : Option (List CallOutcome))
    (metric : Metrics.Metric) :
    only (failuresOfRound request outcomes) metric =
      if metric = .observerFailures then failuresOfRound request outcomes else [] := by
  have failures : ∀ e ∈ failuresOfRound request outcomes,
      e.series.metric = .observerFailures := by
    intro e emitted
    obtain ⟨c, -, made⟩ := List.mem_flatMap.1 emitted
    obtain ⟨f, -, rfl⟩ := List.mem_map.1 made
    rfl
  unfold only
  split
  · next same =>
    refine List.filter_eq_self.2 fun e emitted => ?_
    simp [failures e emitted, same]
  · next other =>
    refine List.filter_eq_nil_iff.2 fun e emitted => ?_
    simp [failures e emitted, Ne.symm other]

namespace Command

variable (c : Command) (settlement : Option Settlement)

/-- What the command `c` emits once its phase is over, besides the failures and the duration of its
round. -/
def gauge {ε : Type} (p : Progress ε) : List Emission :=
  match c with
  | construct .. => [Metrics.intervals (p.finalOf settlement).size]
  | _ => []

theorem emitted_settle {ε : Type} (p : Progress ε) :
    (c.settle settlement p).scene.emitted = p.scene.emitted ++ c.gauge settlement p := by
  cases c with
  | construct => rfl
  | _ => exact (List.append_nil _).symm

/-- Construction tells how many intervals the final stream has, and nothing else does. -/
theorem only_gauge {ε : Type} (p : Progress ε) (metric : Metrics.Metric) :
    only (c.gauge settlement p) metric =
      if metric = .intervals ∧ c.phase = .construction then
        [Metrics.intervals (c.settle settlement p).orchestrator.final.size]
      else [] := by
  cases c with
  | construct =>
    by_cases same : metric = .intervals
    · subst same
      rfl
    · simp [gauge, phase, Metrics.intervals, same, Ne.symm same]
  | _ => simp [gauge, phase]

theorem only_gauge_of_ne {ε : Type} (p : Progress ε) {metric : Metrics.Metric}
    (other : metric ≠ .intervals) : only (c.gauge settlement p) metric = [] := by
  rw [c.only_gauge, if_neg fun both => other both.1]

end Command

namespace Schedule

/-- The series of the durations of `phase`, under the label of that phase. -/
def durationSeries (phase : Phase) : Series := (Metrics.phaseDuration phase.label 0).series

variable {observers : List Registration} {phases : List Phase} {q q' : Run}

/-- What a run of these `observers` has emitted so far, when `phases` were asked for: the invariant
from which all that the metrics say is read off. -/
structure Metered (observers : List Registration) (phases : List Phase) (r : Run) : Prop where
  registered : only r.scene.emitted .observersRegistered =
    [Metrics.observersRegistered observers.length]
  failures : only r.scene.emitted .observerFailures =
    r.world.ledger.flatMap fun e => failuresOfRound e.1 e.2
  /-- Every round that was joined has one duration. -/
  durations : (only r.scene.emitted .phaseDuration).map Emission.series =
    (r.world.ledger.filter fun e => e.2.isSome).map fun e => durationSeries e.1.call.phase
  /-- The final stream is counted when it is made. -/
  intervals : r.isFree = true → only r.scene.emitted .intervals =
    if 3 ≤ (Due.ofPhases phases).count then [Metrics.intervals r.orchestrator.final.size] else []
  results : only r.scene.emitted .results = []

namespace Metered

theorem new (runId : String) (registry : Registry) (limits : Limits) (origin : Nat) :
    Metered registry.entries [] (Run.new runId registry limits origin) where
  registered := rfl
  failures := rfl
  durations := rfl
  intervals _ := rfl
  results := rfl

/-- What another round and its command emit, as a step of `Metered`. -/
theorem grow (h : Metered observers phases q) {phases' : List Phase} (new : List Emission)
    (rounds : List (JoinRequest × Option (List CallOutcome)))
    (emitted : q'.scene.emitted = q.scene.emitted ++ new)
    (ledger : q'.world.ledger = q.world.ledger ++ rounds)
    (registered : only new .observersRegistered = [])
    (failures : only new .observerFailures = rounds.flatMap fun e => failuresOfRound e.1 e.2)
    (durations : (only new .phaseDuration).map Emission.series =
      (rounds.filter fun e => e.2.isSome).map fun e => durationSeries e.1.call.phase)
    (intervals : q'.isFree = true → only q.scene.emitted .intervals ++ only new .intervals =
      if 3 ≤ (Due.ofPhases phases').count then [Metrics.intervals q'.orchestrator.final.size]
      else [])
    (results : only new .results = []) : Metered observers phases' q' where
  registered := by simp [emitted, registered, h.registered]
  failures := by
    rw [emitted, Metrics.only_append, h.failures, failures, ledger, List.flatMap_append]
  durations := by
    rw [emitted, Metrics.only_append, List.map_append, h.durations, durations, ledger,
      List.filter_append, List.map_append]
  intervals free := by
    rw [emitted, Metrics.only_append]
    exact intervals free
  results := by simp [emitted, results, h.results]

theorem rests (h : Metered observers phases q) (rests : Rests q q') :
    Metered observers phases q' := by
  refine h.grow [] [] ?_ ?_ rfl rfl rfl (fun free => ?_) rfl
  · rw [rests.drift.emitted, List.append_nil]
  · rw [List.append_nil]
    exact rests.drift.world.ledger
  · rw [Run.isFree, rests.standing] at free
    rw [rests.orchestrator]
    simpa using h.intervals free

theorem ignored (h : Metered observers phases q) (busy : q.isFree = false) (phase : Phase) :
    Metered observers (phases ++ [phase]) q :=
  { h with intervals := fun free => absurd (busy.symm.trans free) Bool.false_ne_true }

theorem idle (h : Metered observers phases q) {phase : Phase}
    (same : (Due.ofPhases phases).ask phase = Due.ofPhases phases) :
    Metered observers (phases ++ [phase]) q :=
  { h with intervals := by rw [Due.ofPhases_concat, same]; exact h.intervals }

theorem counted (h : Metered observers phases q) {made : Due}
    (traced : Traced observers phases made q) (free : q.isFree = true) {phase : Phase}
    (working : phase ≠ .cleanup) (ready : phase.Ready q.orchestrator.state)
    (same : phase ≠ .construction → q'.orchestrator.final = q.orchestrator.final) :
    (only q.scene.emitted .intervals ++
      if phase = .construction then [Metrics.intervals q'.orchestrator.final.size] else []) =
    if 3 ≤ (Due.ofPhases (phases ++ [phase])).count then
      [Metrics.intervals q'.orchestrator.final.size]
    else [] := by
  rw [traced.state free] at ready
  have due := Due.ask_of_ready working ready
  obtain ⟨-, next⟩ := (Due.ready_iff working).1 ready
  rw [h.intervals free, Due.ofPhases_concat, due]
  by_cases third : phase = .construction
  · -- Construction is the third of the phases, so two of them are over.
    have count : (Due.ofPhases phases).count = 2 := by
      obtain ⟨lt, here⟩ := List.getElem?_eq_some_iff.1 next
      have distinct : Phase.working.Nodup := by decide
      have position := distinct.idxOf_getElem _ lt
      rw [here, third] at position
      exact position.symm
    simp [third, count]
  · have count : (Due.ofPhases phases).count ≠ 2 := fun two => by
      rw [two] at next
      exact third (Option.some.inj next).symm
    have level : 3 ≤ (Due.ofPhases phases).count + 1 ↔ 3 ≤ (Due.ofPhases phases).count := by omega
    simp [third, level, same third]

/-- What a joined round emits: its failures, one duration and what its command adds. -/
theorem joined (h : Metered observers phases q) {phases' : List Phase} (request : JoinRequest)
    (outcomes : List CallOutcome) (millis : Nat) (gauge : List Emission)
    (emitted : q'.scene.emitted = q.scene.emitted ++ (failuresOfRound request (some outcomes) ++
      [Metrics.phaseDuration request.call.phase.label millis] ++ gauge))
    (ledger : q'.world.ledger = q.world.ledger ++ [(request, some outcomes)])
    (gauges : ∀ metric, metric ≠ .intervals → only gauge metric = [])
    (intervals : q'.isFree = true → only q.scene.emitted .intervals ++ only gauge .intervals =
      if 3 ≤ (Due.ofPhases phases').count then [Metrics.intervals q'.orchestrator.final.size]
      else []) : Metered observers phases' q' := by
  refine h.grow _ _ emitted ledger ?_ ?_ ?_ (fun free => ?_) ?_
  · simp [only_failuresOfRound, Metrics.phaseDuration, gauges]
  · simp [only_failuresOfRound, Metrics.phaseDuration, gauges]
  · simp [only_failuresOfRound, Metrics.phaseDuration, gauges, durationSeries]
  · rw [← intervals free]
    simp [only_failuresOfRound, Metrics.phaseDuration]
  · simp [only_failuresOfRound, Metrics.phaseDuration, gauges]

theorem skips (h : Metered observers phases q) {made : Due}
    (traced : Traced observers phases made q) (free : q.isFree = true) {c : Command}
    (working : c.phase ≠ .cleanup) (ready : c.phase.Ready q.orchestrator.state) :
    Metered observers (phases ++ [c.phase]) (c.settle none (q.begun c.phase)) := by
  have gauges (metric : Metrics.Metric) (other : metric ≠ .intervals) :=
    c.only_gauge_of_ne none (q.begun c.phase) other
  refine h.grow _ [] (c.emitted_settle none _) ?_ (gauges _ (by decide)) (gauges _ (by decide)) ?_
    (fun _ => ?_) (gauges _ (by decide))
  · rw [Run.world, Command.inner_settle, List.append_nil]
    rfl
  · rw [gauges .phaseDuration (by decide)]
    rfl
  · rw [c.only_gauge]
    simpa using h.counted traced free working ready (Command.final_settle none (q.begun c.phase))

theorem stalls (h : Metered observers phases q) {phases' : List Phase} {request : JoinRequest}
    {s scene : Stage} (joined : Joined request s none scene)
    (emitted : s.emitted = q.scene.emitted) (ledger : s.inner.ledger = q.world.ledger)
    (same : q'.scene = scene) : Metered observers phases' q' := by
  subst same
  refine h.grow [] [(request, none)] ?_ ?_ rfl (by simp) rfl (fun free => ?_) rfl
  · rw [List.append_nil, ← emitted]
    exact joined.emitted
  · rw [← ledger]
    exact joined.ledger
  · exact absurd (joined.free.1 (of_decide_eq_true free)) Bool.false_ne_true

theorem settles (h : Metered observers phases q) {made : Due}
    (traced : Traced observers phases made q) (free : q.isFree = true) {c : Command}
    (working : c.phase ≠ .cleanup) (ready : c.phase.Ready q.orchestrator.state)
    {outcomes : List CallOutcome} {scene : Stage}
    (joined : Joined (q.requestOf (c.call q)) (q.sceneOf c.phase) (some outcomes) scene) :
    Metered observers (phases ++ [c.phase])
      (c.settle (some (.ofCalls c.phase q.orchestrator.observers outcomes))
        (q.settledWith (c.call q) outcomes scene)) := by
  have ledger := joined.ledger
  rw [q.inner_sceneOf] at ledger
  let settlement := Settlement.ofCalls c.phase q.orchestrator.observers outcomes
  -- What the settlement tells as failures are those of the round.
  have failures : settlement.failures =
      failuresOfRound (q.requestOf (c.call q)) (some outcomes) := by
    rw [← failures_ofCalls]
    simp [settlement, Progress.requestOf]
  let p := q.settledWith (c.call q) outcomes scene
  refine h.joined (q.requestOf (c.call q)) outcomes (scene.clock - q.scene.clock)
    (c.gauge (some settlement) p) ?_ ?_
    (fun _ other => c.only_gauge_of_ne (some settlement) p other) (fun _ => ?_)
  · rw [c.emitted_settle, ← q.emitted_sceneOf c.phase, ← joined.emitted, ← failures]
    simp [Progress.settledWith, Scene.emit, settlement, Progress.requestOf, p]
  · rw [Run.world, Command.inner_settle]
    exact ledger
  · rw [c.only_gauge]
    simpa using h.counted traced free working ready (Command.final_settle (some settlement) p)

theorem cleans (h : Metered observers phases q) (free : q.isFree = true)
    {outcomes : List CallOutcome} {scene : Stage}
    (joined : Joined (q.orchestrator.cleanupRequest q.scene.started) q.scene (some outcomes)
      scene) : Metered observers (phases ++ [.cleanup]) (q.cleanedWith outcomes scene) := by
  let request := q.orchestrator.cleanupRequest q.scene.started
  have failures := failures_ofCalls request outcomes
  refine h.joined request outcomes (scene.clock - q.scene.clock) [] ?_ joined.ledger
    (fun _ _ => rfl) (fun _ => ?_)
  · rw [← joined.emitted, ← failures, List.append_nil]
    rfl
  · -- Cleanup is not one of the phases that are counted.
    have count : (Due.ofPhases (phases ++ [.cleanup])).count = (Due.ofPhases phases).count := by
      rw [Due.ofPhases_concat, Due.ask]
      split <;> rfl
    rw [count, Metrics.only_nil, List.append_nil]
    exact h.intervals free

/-- Whatever a run is asked for, it emits what it does: one case of `Commanded` after the other. -/
theorem asks (h : Metered observers phases q) {made : Due}
    (traced : Traced observers phases made q) (free : q.isFree = true) {c : Command}
    {answer : Except Halt Unit} (asked : Asked c q answer q') :
    Metered observers (phases ++ [c.phase]) q' := by
  -- Durations and failures are emitted where calls have returned, which is in two of the cases.
  cases asked with
  | refused working unready =>
    rw [traced.state free] at unready
    exact h.idle (Due.ask_of_not_ready working unready)
  | skipped working ready => exact h.skips traced free working ready
  | unjoined scene working ready going joined =>
    exact h.stalls joined (q.emitted_sceneOf c.phase)
      (congrArg World.ledger (q.inner_sceneOf c.phase)) rfl
  | joined outcomes scene working ready going joined =>
    exact h.settles traced free working ready joined
  | again cleanup done =>
    rw [cleanup]
    exact h.idle (traced.ask_cleanup free done)
  | uncleaned scene cleanup first joined => exact h.stalls joined rfl rfl rfl
  | cleaned outcomes scene cleanup first joined =>
    rw [cleanup]
    exact h.cleans free joined

end Metered

/-- Every run has emitted what it has done, whatever `acts` have happened to it. -/
theorem metered_after (runId : String) (registry : Registry) (limits : Limits) (origin : Nat)
    (acts : List Act) :
    Metered registry.entries (Run.asked acts)
      ((Run.new runId registry limits origin).after acts) := by
  let motive (phases : List Phase) (q : Run) : Prop :=
    (∃ made, Traced registry.entries phases made q) ∧ Metered registry.entries phases q
  have both : motive (Run.asked acts) ((Run.new runId registry limits origin).after acts) := by
    refine Run.after_induction
      ⟨⟨{}, .new runId registry limits origin⟩, .new runId registry limits origin⟩ ?_ ?_ ?_ acts
    · rintro phases q q' ⟨⟨made, traced⟩, metered⟩ rests
      exact ⟨⟨made, traced.rests rests⟩, metered.rests rests⟩
    · rintro phases q c ⟨⟨made, traced⟩, metered⟩ busy
      exact ⟨⟨made, traced.ignored busy c.phase⟩, metered.ignored busy c.phase⟩
    · rintro phases q q' c answer ⟨⟨made, traced⟩, metered⟩ free asked
      exact ⟨traced.asks free asked, metered.asks traced free asked⟩
  exact both.2

/-! ## What the metrics of a run say -/

/-- How the call of `observer` in `phase` failed, if it was made and did not return. -/
def World.failure? (w : World) (phase : Phase) (observer : Nat) : Option (FailureKind × String) :=
  (w.outcomesOf phase)[observer]?.bind fun outcome => outcome.failure? phase

/-- The metrics of a run of these `observers`, as they were `emitted`, agree with its `report`, when
`phases` were asked for. -/
structure MetricsAgree (observers : List Registration) (phases : List Phase) (r : Run)
    (report : Report) (emitted : List Emission) : Prop where
  /-- The failures of an observer in a phase are counted by their kind: one for a call that did not
  return, and none otherwise, whatever records the call returned. -/
  failures : ∀ j o, observers[j]? = some o → ∀ (phase : Phase) (kind : FailureKind),
    Metrics.total emitted (Metrics.observerFailure o.name phase.label kind.name).series =
      if (r.world.failure? phase j).map Prod.fst = some kind then 1 else 0
  /-- A call that is counted has its `failureRecord` in the report. -/
  recorded : ∀ j o, observers[j]? = some o → ∀ (phase : Phase) (kind : FailureKind)
    (detail : String), r.world.failure? phase j = some (kind, detail) →
      failureRecord o phase detail ∈ report.results
  passed : Metrics.total emitted (Metrics.results "pass" 0).series = report.counts.passed
  failed : Metrics.total emitted (Metrics.results "fail" 0).series = report.counts.failed
  flaked : Metrics.total emitted (Metrics.results "flake" 0).series = report.counts.flaked
  /-- Once construction was asked for in its order, the intervals of the report are counted, also if
  their phase was skipped. -/
  intervals : 3 ≤ (Due.ofPhases phases).count →
    Metrics.reading emitted (Metrics.intervals 0).series = [report.intervals.size]
  registered : Metrics.reading emitted (Metrics.observersRegistered 0).series = [observers.length]
  /-- A phase whose calls were made has one duration, and so has cleanup; one that was skipped or
  refused has none. -/
  durations : ∀ phase : Phase, (Metrics.reading emitted (durationSeries phase)).length =
    if phase ∈ r.world.ledger.map (fun e => e.1.call.phase) then 1 else 0

theorem filter_of_nodup {α : Type} {phase : α → Phase} {l : List α} (distinct : (l.map phase).Nodup)
    (a : Phase) : l.filter (fun b => phase b == a) = (l.find? fun b => phase b == a).toList := by
  induction l with
  | nil => rfl
  | cons b l ih =>
    obtain ⟨fresh, distinct⟩ := List.nodup_cons.1 distinct
    by_cases here : phase b = a
    · have none : l.filter (fun b => phase b == a) = [] := by
        refine List.filter_eq_nil_iff.2 fun c hc same => fresh ?_
        rw [here, ← eq_of_beq same]
        exact List.mem_map_of_mem hc
      simp [here, none]
    · simp [here, ih distinct]

namespace Metered

variable {r : Run}

theorem samples_failures (h : Metered observers phases r) (booked : Booked r)
    (named : (observers.map Registration.name).Nodup)
    (distinct : (r.world.ledger.map fun e => e.1.call.phase).Nodup)
    (targets : ∀ e ∈ r.world.ledger, e.1.targets = observers ∨ e.1.targets = [])
    {j : Nat} {o : Registration} (registered : observers[j]? = some o) (phase : Phase)
    (kind : FailureKind) :
    Metrics.samples r.scene.emitted
        (Metrics.observerFailure o.name phase.label kind.name).series =
      if (r.world.failure? phase j).map Prod.fst = some kind then [1] else [] := by
  have failures : only r.scene.emitted
      (Metrics.observerFailure o.name phase.label kind.name).series.metric = _ := h.failures
  rw [← Metrics.samples_only, failures, Metrics.samples_flatMap]
  -- Only the round of the phase counts, and there is one at most.
  rw [flatMap_eq_flatMap_filter (fun e => e.1.call.phase == phase) fun e _ other => by
      rw [failuresOfRound, Metrics.samples_flatMap]
      refine List.flatMap_eq_nil_iff.2 fun c _ => ?_
      have labels : e.1.call.phase.label ≠ phase.label :=
        fun same => ne_of_beq_false other (Phase.label_injective same)
      exact samples_failureOfCall_of_ne (.inr labels) c.2 kind.name,
    filter_of_nodup distinct]
  unfold World.failure? World.outcomesOf
  cases found : r.world.ledger.find? fun e => e.1.call.phase == phase with
  | none => rfl
  | some e =>
    have here := List.find?_some found
    obtain rfl : e.1.call.phase = phase := eq_of_beq here
    have member := List.mem_of_find?_eq_some found
    rw [Option.toList_some, List.flatMap_singleton]
    rcases targets e member with all | none
    · rw [samples_failuresOfRound (all ▸ named) e.2 (all ▸ registered) kind]
      rfl
    · -- Nobody was called, so there are no outcomes either.
      have outcomes : e.2.getD [] = [] := by
        have few := booked.length_outcomes member
        rw [none] at few
        exact List.length_eq_zero_iff.1 (Nat.le_zero.1 few)
      have uncalled : failuresOfRound e.1 e.2 = [] := by
        rw [failuresOfRound, outcomesOfRound, none]
        rfl
      rw [uncalled, Option.bind_some, outcomes]
      rfl

theorem length_durations (h : Metered observers phases r) (booked : Booked r)
    (free : r.isFree = true) (distinct : (r.world.ledger.map fun e => e.1.call.phase).Nodup)
    (phase : Phase) : (Metrics.samples r.scene.emitted (durationSeries phase)).length =
      if phase ∈ r.world.ledger.map (fun e => e.1.call.phase) then 1 else 0 := by
  have durations : (only r.scene.emitted (durationSeries phase).metric).map Emission.series = _ :=
    h.durations
  have joined : (r.world.ledger.filter fun e => e.2.isSome) = r.world.ledger :=
    List.filter_eq_self.2 (booked.settled free)
  have apart : Function.Injective durationSeries := by
    intro phase other same
    refine Phase.label_injective ?_
    simpa [durationSeries, Metrics.phaseDuration] using same
  have labelled : (r.world.ledger.map fun e => durationSeries e.1.call.phase) =
      (r.world.ledger.map fun e => e.1.call.phase).map durationSeries := by
    rw [List.map_map]
    rfl
  rw [← Metrics.samples_only, Metrics.length_samples, durations, joined, labelled,
    List.count_map_of_injective _ _ apart, distinct.count]

theorem samples_intervals (h : Metered observers phases r) (free : r.isFree = true)
    (constructed : 3 ≤ (Due.ofPhases phases).count) :
    Metrics.samples r.scene.emitted (Metrics.intervals 0).series =
      [r.orchestrator.final.size] := by
  have intervals : only r.scene.emitted (Metrics.intervals 0).series.metric = _ :=
    h.intervals free
  rw [← Metrics.samples_only, intervals, if_pos constructed]
  rfl

theorem samples_registered (h : Metered observers phases r) :
    Metrics.samples r.scene.emitted (Metrics.observersRegistered 0).series =
      [observers.length] := by
  have registered : only r.scene.emitted (Metrics.observersRegistered 0).series.metric = _ :=
    h.registered
  rw [← Metrics.samples_only, registered]
  rfl

end Metered

theorem Booked.recorded {r : Run} (booked : Booked r)
    (targets : ∀ e ∈ r.world.ledger, e.1.targets = observers ∨ e.1.targets = [])
    {j : Nat} {o : Registration} (registered : observers[j]? = some o) {phase : Phase}
    {kind : FailureKind} {detail : String}
    (failed : r.world.failure? phase j = some (kind, detail)) :
    failureRecord o phase detail ∈ r.orchestrator.results := by
  obtain ⟨outcome, settled, failure⟩ := Option.bind_eq_some_iff.1 failed
  unfold World.outcomesOf at settled
  cases found : r.world.ledger.find? fun e => e.1.call.phase == phase with
  | none => simp [found] at settled
  | some e =>
    have here := List.find?_some found
    obtain rfl : e.1.call.phase = phase := eq_of_beq here
    have member := List.mem_of_find?_eq_some found
    rw [found, Option.bind_some] at settled
    rcases targets e member with all | none
    · -- The outcomes of a round are in the order of the observers that it calls.
      have called : (o, outcome) ∈ outcomesOfRound e.1 e.2 := by
        refine List.mem_iff_getElem?.2 ⟨j, ?_⟩
        rw [outcomesOfRound, all, List.getElem?_zip_eq_some]
        exact ⟨registered, settled⟩
      rw [booked.results]
      refine List.mem_flatMap.2 ⟨e, member, List.mem_flatMap.2 ⟨_, called, ?_⟩⟩
      rw [recordsOfCall_of_failure failure]
      exact List.mem_singleton_self _
    · -- A round that calls nobody has no outcomes.
      have few := booked.length_outcomes member
      rw [none] at few
      rw [List.length_eq_zero_iff.1 (Nat.le_zero.1 few)] at settled
      cases settled

theorem samples_report (emitted : List Emission) (c : Counts) (s : Series) :
    Metrics.samples (emitted ++ Orchestrator.reportEmissions c) s =
      if s.metric = .results then
        Metrics.samples emitted s ++ Metrics.samples (Orchestrator.reportEmissions c) s
      else Metrics.samples emitted s := by
  rw [Metrics.samples_append]
  split
  · rfl
  · next other =>
    rw [← Metrics.samples_only (Orchestrator.reportEmissions c)]
    simp [Orchestrator.reportEmissions, Metrics.results, Ne.symm other, Metrics.samples]

/-- The metrics of a run agree with its report, whatever was asked for and how often, however the
calls of the observers end and whenever the run is cancelled, if nobody forces cleanup. -/
theorem metrics_agree_with_report (runId : String) (registry : Registry) (limits : Limits)
    (origin : Nat) (acts : List Act)
    (free : ((Run.new runId registry limits origin).after acts).isFree = true) :
    let r := (Run.new runId registry limits origin).after acts
    ∃ report q, r.perform Conduct.intoReport = (.ok report, q) ∧
      MetricsAgree registry.entries (Run.asked acts) r report q.scene.emitted := by
  have metered := metered_after runId registry limits origin acts
  have booked := booked_after runId registry limits origin acts
  have order := phases_sublist runId registry limits origin acts
  obtain ⟨made, traced⟩ := traced_after runId registry limits origin acts
  generalize (Run.new runId registry limits origin).after acts = r at *
  -- Each phase is asked for once at most, so its calls are those of one round.
  have distinct : (r.world.ledger.map fun e => e.1.call.phase).Nodup :=
    order.nodup (by decide)
  have targets (e) (he : e ∈ r.world.ledger) :
      e.1.targets = registry.entries ∨ e.1.targets = [] := by
    have called : (e.1.call.phase, e.1.targets) ∈ r.world.calls := List.mem_map_of_mem he
    exact (traced.targets called).imp_right fun none => none.2.2
  refine ⟨r.orchestrator.report, _, rfl, ?_⟩
  let emitted := r.scene.emitted ++
    Orchestrator.reportEmissions r.orchestrator.report.counts
  change MetricsAgree registry.entries (Run.asked acts) r r.orchestrator.report emitted
  -- Only the results are emitted when the report is made, and none of them before.
  have earlier (s : Series) (other : s.metric ≠ .results) :
      Metrics.samples emitted s = Metrics.samples r.scene.emitted s := by
    rw [samples_report, if_neg other]
  have tally (s : Series) (n : Nat) (same : s.metric = .results)
      (once : Metrics.samples
        (Orchestrator.reportEmissions r.orchestrator.report.counts) s = [n]) :
      Metrics.total emitted s = n := by
    have none : Metrics.samples r.scene.emitted s = [] := by
      rw [← Metrics.samples_only, same, metered.results]
      rfl
    rw [Metrics.total_of_counter _ _ (by rw [same]; rfl), samples_report, if_pos same, none, once]
    exact Nat.zero_add n
  have durations (phase : Phase) := metered.length_durations booked free distinct phase
  exact
    { failures := fun j o registered phase kind => by
        have failures := metered.samples_failures booked registry.distinct distinct targets
          registered phase kind
        rw [Metrics.total_of_counter _ _ rfl, earlier _ (by exact nofun), failures]
        split <;> rfl
      recorded := fun j o registered phase kind detail => booked.recorded targets registered
      passed := tally (Metrics.results "pass" 0).series _ rfl rfl
      failed := tally (Metrics.results "fail" 0).series _ rfl rfl
      flaked := tally (Metrics.results "flake" 0).series _ rfl rfl
      intervals := fun constructed => by
        rw [Metrics.reading_of_gauge _ _ rfl, earlier _ (by exact nofun),
          metered.samples_intervals free constructed]
        rfl
      registered := by
        rw [Metrics.reading_of_gauge _ _ rfl, earlier _ (by exact nofun),
          metered.samples_registered]
        rfl
      durations := fun phase => by
        rw [Metrics.reading_of_histogram _ _ rfl, earlier _ (by exact nofun)]
        exact durations phase }

/-- A call of setup fails, and setup is asked for once more. Then the run is cancelled. -/
def cutShort : List Act :=
  let access : ClusterAccess := ⟨"", none, none, none, none, false⟩
  [.command (.setup access) (served 0 [.failed .emptyName]), .command (.setup access) [],
   .beside .cancelRun, .command (.collect "" default) [],
   .command (.construct .empty default) [], .command .evaluate [],
   .command (.store "" "" .empty) [], .command .cleanup (served 1 [.returned {}])]

def cutShortRun : Run :=
  (Run.new "" singleRegistry ⟨.ofSecs 60, .ofSecs 60, .ofSecs 5⟩ 0).after cutShort

/-- In `cutShortRun` the failure is counted once, and only setup and cleanup have a duration. -/
theorem metrics_agree_with_report_of_cutShort :
    cutShortRun.isFree = true ∧
    ∃ report q, cutShortRun.perform Conduct.intoReport = (.ok report, q) ∧
      Metrics.total q.scene.emitted (Metrics.observerFailure "a" "setup" "error").series = 1 ∧
      Metrics.total q.scene.emitted (Metrics.results "fail" 0).series = report.counts.failed ∧
      Metrics.reading q.scene.emitted (Metrics.intervals 0).series = [report.intervals.size] ∧
      Phase.all.map (fun phase =>
        (Metrics.reading q.scene.emitted (durationSeries phase)).length) = [1, 0, 0, 0, 0, 1] := by
  have free : cutShortRun.isFree = true := by decide +kernel
  obtain ⟨report, q, made, agree⟩ := metrics_agree_with_report "" singleRegistry
    ⟨.ofSecs 60, .ofSecs 60, .ofSecs 5⟩ 0 cutShort free
  refine ⟨free, report, q, made, ?_, agree.failed, agree.intervals (by decide), ?_⟩
  · refine (agree.failures 0 ⟨"a", "x"⟩ rfl .setup .error).trans (if_pos ?_)
    change (cutShortRun.world.failure? .setup 0).map Prod.fst = some .error
    decide +kernel
  · rw [List.map_congr_left fun phase _ => agree.durations phase]
    change (Phase.all.map fun phase =>
      if phase ∈ cutShortRun.world.ledger.map (fun e => e.1.call.phase) then 1 else 0) = _
    decide +kernel

end Schedule
end Vigil
