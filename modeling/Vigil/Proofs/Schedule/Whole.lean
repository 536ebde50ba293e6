import Vigil.Proofs.Results
import Vigil.Proofs.Schedule.Taking
import Vigil.Proofs.Streams

/-!
# Whole runs

A whole run asks an orchestrator for all its phases in their order. Anything may go on beside it
between two phases and within them. What `Conduct.run` does under a schedule is such a run.

The module introduces:

* `RunInputs.commands`, what a whole run asks for;
* `Whole`, a whole run under a schedule, and `Whole.upTo`, the run once some of its phases were
  asked for;
* `Whole.Complete`, the whole runs that have come to their end and were not cancelled, and
  `World.outcomesOf`, what became of the calls of a phase.
-/

namespace Vigil

/-- What a whole run asks for, in its order: the commands of all six phases, with `window` as the
window of collection and construction. -/
def RunInputs.commands (inputs : RunInputs) (window : Window) : List Command :=
  [.setup inputs.access, .collect inputs.storageDir window,
   .construct inputs.resources window, .evaluate,
   .store inputs.storageDir inputs.suffix inputs.resources, .cleanup]

namespace Schedule

theorem Run.isFree_of_after {r : Run} {acts : List Act} (free : (r.after acts).isFree = true) :
    r.isFree = true := by
  refine Bool.of_not_eq_false fun busy => ?_
  have stays := Run.after_invariant (motive := fun q => q.isFree = false) busy
    (fun busy rests => by rw [Run.isFree, rests.standing]; exact busy)
    (fun busy free _ => absurd (busy.symm.trans free) Bool.false_ne_true) acts
  exact absurd (stays.symm.trans free) Bool.false_ne_true

theorem Run.going_of_after {r : Run} {acts : List Act}
    (going : (r.after acts).orchestrator.cancelled = false) : r.orchestrator.cancelled = false := by
  refine Bool.eq_false_iff.2 fun cancelled => ?_
  exact absurd (going.symm.trans (cancelled_after cancelled acts).1) Bool.false_ne_true

/-- A whole run under a schedule: what goes on before and during each phase, and the times at which
its window opened and closed. -/
structure Whole where
  runId : String
  /-- What the monotonic clock of the host reads at the start, in nanoseconds. -/
  origin : Nat
  window : Window
  /-- What goes on before a phase. -/
  before : Phase → List Move
  /-- The schedule of a phase. -/
  slots : Phase → List Slot

namespace Whole

/-- What happens from the end of the command before until `c` is carried out. -/
def stage (w : Whole) (c : Command) : List Act :=
  (w.before c.phase).map .beside ++ [.command c (w.slots c.phase)]

section

variable (registry : Registry) (limits : Limits) (inputs : RunInputs) (w : Whole)

/-- What happens until `n` of the `inputs.commands` are carried out. -/
def acts (n : Nat) : List Act := ((inputs.commands w.window).take n).flatMap w.stage

def upTo (n : Nat) : Run := (Run.new w.runId registry limits w.origin).after (w.acts inputs n)

/-- The run when the command `c` is asked for after `n` others, with what goes on before its
phase. -/
def asking (n : Nat) (c : Command) : Run :=
  (w.upTo registry limits inputs n).after ((w.before c.phase).map .beside)

end

variable {registry : Registry} {limits : Limits} {inputs : RunInputs} {w : Whole}

theorem asked_flatMap (commands : List Command) :
    Run.asked (commands.flatMap w.stage) = commands.map Command.phase := by
  induction commands with
  | nil => rfl
  | cons c commands ih =>
    have first : Run.asked (w.stage c) = [c.phase] := by
      simp [Run.asked, stage, List.filterMap_map]
    rw [List.flatMap_cons, Run.asked, List.filterMap_append]
    exact congrArg₂ (· ++ ·) first ih

theorem asked_acts (n : Nat) : Run.asked (w.acts inputs n) = Phase.all.take n := by
  rw [acts, asked_flatMap, List.map_take]
  rfl

/-- The next command is asked for in `w.asking`, after what goes on before its phase. -/
theorem upTo_succ {n : Nat} {c : Command} (next : (inputs.commands w.window)[n]? = some c) :
    w.upTo registry limits inputs (n + 1) =
      (w.asking registry limits inputs n c).act (.command c (w.slots c.phase)) := by
  have grown : w.acts inputs (n + 1) = w.acts inputs n ++ w.stage c := by
    rw [acts, List.take_add_one, next, List.flatMap_append]
    simp [acts]
  rw [upTo, grown, Run.after_append, stage, Run.after_concat]
  rfl

theorem exists_upTo (n : Nat) {m : Nat} (le : n ≤ m) :
    ∃ rest, w.upTo registry limits inputs m = (w.upTo registry limits inputs n).after rest := by
  obtain ⟨k, rfl⟩ := Nat.exists_eq_add_of_le le
  refine ⟨(((inputs.commands w.window).drop n).take k).flatMap w.stage, ?_⟩
  rw [upTo, acts, List.take_add, List.flatMap_append, Run.after_append]
  rfl

/-- A whole run that has come to its end and was not cancelled: the runs for which the report says
something of every phase. -/
structure Complete (registry : Registry) (limits : Limits) (inputs : RunInputs) (w : Whole) :
    Prop where
  /-- No phase was left in the midst of its calls. -/
  free : (w.upTo registry limits inputs 6).isFree = true
  going : (w.upTo registry limits inputs 6).orchestrator.cancelled = false

end Whole

/-- What became of the calls of `phase`, in the order of the observers. Nothing is listed for a
phase whose calls were never joined. -/
def World.outcomesOf (w : World) (phase : Phase) : List CallOutcome :=
  ((w.ledger.find? fun e => e.1.call.phase == phase).bind Prod.snd).getD []

theorem ledger_prefix_after (r : Run) (acts : List Act) :
    r.world.ledger <+: (r.after acts).world.ledger := by
  refine Run.after_invariant (motive := fun q => r.world.ledger <+: q.world.ledger)
    (List.prefix_refl _) ?_ ?_ acts
  · intro q q' h rests
    rw [show q'.world.ledger = q.world.ledger from rests.drift.world.ledger]
    exact h
  · intro q q' c answer h _ asked
    rcases asked.ledger with same | ⟨request, outcomes, added, -⟩
    · rwa [same]
    · rw [added]
      exact h.trans (List.prefix_append _ _)

theorem Asked.eq_ok {c : Command} {q q' : Run} {answer : Except Halt Unit}
    (h : Asked c q answer q') (ready : c.phase.Ready q.orchestrator.state)
    (free : q'.isFree = true) : answer = .ok () := by
  have standing : q'.world.standing = .free := of_decide_eq_true free
  cases h with
  | refused _ unready => exact absurd ready unready
  | skipped | joined | again | cleaned => rfl
  | unjoined _ _ _ _ joined => exact absurd (joined.free.1 standing) Bool.false_ne_true
  | uncleaned _ _ _ joined => exact absurd (joined.free.1 standing) Bool.false_ne_true

theorem find?_of_nodup {α : Type} {phase : α → Phase} {l : List α} (distinct : (l.map phase).Nodup)
    {a : α} (ha : a ∈ l) : l.find? (fun b => phase b == phase a) = some a := by
  induction l with
  | nil => cases ha
  | cons b l ih =>
    obtain ⟨fresh, distinct⟩ := List.nodup_cons.1 distinct
    rcases List.mem_cons.1 ha with rfl | ha
    · simp
    · have other : (phase b == phase a) = false :=
        beq_false_of_ne fun same => fresh (same ▸ List.mem_map_of_mem ha)
      rw [List.find?_cons, other]
      exact ih distinct ha

/-- Among observers with distinct names only one call is in the name of one of them. -/
theorem filter_zip_named {observers : List Registration}
    (distinct : (observers.map Registration.name).Nodup) (outcomes : List CallOutcome) {j : Nat}
    {o : Registration} (registered : observers[j]? = some o) :
    (observers.zip outcomes).filter (fun c => c.1.name == o.name) =
      outcomes[j]?.toList.map fun outcome => (o, outcome) := by
  induction observers generalizing j outcomes with
  | nil => cases registered
  | cons first observers ih =>
    obtain ⟨fresh, distinct⟩ := List.nodup_cons.1 distinct
    cases outcomes with
    | nil => rfl
    | cons outcome outcomes =>
      cases j with
      | zero =>
        obtain rfl : first = o := Option.some.inj registered
        -- Nobody else has the name.
        have none : (observers.zip outcomes).filter (fun c => c.1.name == first.name) = [] := by
          refine List.filter_eq_nil_iff.2 fun c hc same => fresh ?_
          rw [← eq_of_beq same]
          exact List.mem_map_of_mem (List.of_mem_zip hc).1
        simp [none]
      | succ j =>
        have registered : observers[j]? = some o := by simpa using registered
        have other : first.name ≠ o.name := fun same =>
          fresh (same ▸ List.mem_map_of_mem (List.mem_of_getElem? registered))
        simp [other, ih distinct outcomes registered]

namespace Whole.Complete

variable {registry : Registry} {limits : Limits} {inputs : RunInputs} {w : Whole}

/-- The phases are asked for in the states that they require, so none of the commands of a whole run
is refused. -/
theorem ready {n : Nat} {c : Command} (next : (inputs.commands w.window)[n]? = some c) :
    c.phase.Ready (Due.ofPhases (Phase.all.take n)).state := by
  have order : ∀ n : Fin 6, Phase.all[n].Ready (Due.ofPhases (Phase.all.take n)).state := by decide
  have phases : (inputs.commands w.window).map Command.phase = Phase.all := rfl
  have phase : Phase.all[n]? = some c.phase := by
    rw [← phases, List.getElem?_map, next]
    rfl
  obtain ⟨lt, same⟩ := List.getElem?_eq_some_iff.1 phase
  rw [← same]
  exact order ⟨n, lt⟩

variable (h : w.Complete registry limits inputs)
include h

theorem free_upTo {n : Nat} (le : n ≤ 6) : (w.upTo registry limits inputs n).isFree = true := by
  obtain ⟨rest, later⟩ := exists_upTo n le
  have free := h.free
  rw [later] at free
  exact Run.isFree_of_after free

theorem free_asking {n : Nat} {c : Command} (next : (inputs.commands w.window)[n]? = some c) :
    (w.asking registry limits inputs n c).isFree = true := by
  have lt : n < 6 := (List.getElem?_eq_some_iff.1 next).1
  have free : ((w.asking registry limits inputs n c).after
      [.command c (w.slots c.phase)]).isFree = true := by
    have free := h.free_upTo lt
    rwa [upTo_succ next] at free
  exact Run.isFree_of_after free

theorem going_upTo {n : Nat} (le : n ≤ 6) :
    (w.upTo registry limits inputs n).orchestrator.cancelled = false := by
  obtain ⟨rest, later⟩ := exists_upTo n le
  have going := h.going
  rw [later] at going
  exact Run.going_of_after going

theorem upTo_eq {n : Nat} {c : Command} (next : (inputs.commands w.window)[n]? = some c) :
    w.upTo registry limits inputs (n + 1) =
      ((w.asking registry limits inputs n c).ask c (w.slots c.phase)).2 := by
  rw [upTo_succ next, Run.act_command (h.free_asking next)]

/-- Before each command exactly the calls of the phases before it were made: `Traced` at every point
of a whole run. -/
theorem traced_asking {n : Nat} {c : Command} (next : (inputs.commands w.window)[n]? = some c) :
    Traced registry.entries (Phase.all.take n) (Due.ofPhases (Phase.all.take n))
      (w.asking registry limits inputs n c) := by
  have lt : n < 6 := (List.getElem?_eq_some_iff.1 next).1
  obtain ⟨made, traced⟩ := traced_after w.runId registry limits w.origin
    (w.acts inputs n ++ (w.before c.phase).map .beside)
  have phases : Run.asked (w.acts inputs n ++ (w.before c.phase).map .beside) =
      Phase.all.take n := by
    rw [Run.asked, List.filterMap_append, ← Run.asked, asked_acts]
    simp [List.filterMap_map]
  rw [Run.after_append, phases] at traced
  -- What is cancelled stays cancelled, and after the next command the run is not.
  have going : (w.asking registry limits inputs n c).orchestrator.cancelled = false := by
    have going : ((w.asking registry limits inputs n c).after
        [.command c (w.slots c.phase)]).orchestrator.cancelled = false := by
      have going := h.going_upTo lt
      rwa [upTo_succ next] at going
    exact Run.going_of_after going
  have level := traced.level (h.free_asking next) going
  rw [level] at traced
  exact traced

theorem answer {n : Nat} {c : Command} (next : (inputs.commands w.window)[n]? = some c) :
    ((w.asking registry limits inputs n c).ask c (w.slots c.phase)).1 = .ok () := by
  have lt : n < 6 := (List.getElem?_eq_some_iff.1 next).1
  have asked := asked_ask c (w.slots c.phase) (w.asking registry limits inputs n c)
  refine asked.eq_ok ?_ ?_
  · have state := (h.traced_asking next).state (h.free_asking next)
    change c.phase.Ready (w.asking registry limits inputs n c).orchestrator.state
    rw [state]
    exact ready next
  · rw [← h.upTo_eq next]
    exact h.free_upTo lt

theorem asked {n : Nat} {c : Command} (next : (inputs.commands w.window)[n]? = some c) :
    Asked c
      ((w.asking registry limits inputs n c).updateScene fun s => s.stand .free (w.slots c.phase))
      (.ok ()) (w.upTo registry limits inputs (n + 1)) := by
  rw [h.upTo_eq next]
  exact asked_of_ask (Prod.ext (h.answer next) rfl)

theorem calls_upTo {n : Nat} (le : n ≤ 6) :
    (w.upTo registry limits inputs n).world.calls =
      trace registry.entries (Due.ofPhases (Phase.all.take n)) := by
  obtain ⟨made, traced⟩ := traced_after w.runId registry limits w.origin (w.acts inputs n)
  rw [asked_acts] at traced
  rw [upTo, traced.calls, traced.level (h.free_upTo le) (h.going_upTo le)]

/-- The phases of the rounds of a complete run, and who was called in them: all six, and
everybody. -/
theorem calls : (w.upTo registry limits inputs 6).world.calls =
    Phase.all.map fun phase => (phase, registry.entries) :=
  h.calls_upTo (Nat.le_refl 6)

theorem phases : (w.upTo registry limits inputs 6).world.ledger.map (fun e => e.1.call.phase) =
    Phase.all := by
  have firsts := congrArg (List.map Prod.fst) h.calls
  rw [World.calls, List.map_map, List.map_map] at firsts
  exact firsts

/-- Every round of a complete run has one outcome for each observer, and its phase is one of the
six. -/
theorem mem_ledger {e : JoinRequest × Option (List CallOutcome)}
    (he : e ∈ (w.upTo registry limits inputs 6).world.ledger) :
    let outcomes := (w.upTo registry limits inputs 6).world.outcomesOf e.1.call.phase
    e.1.targets = registry.entries ∧ e.2 = some outcomes ∧
      outcomes.length = registry.entries.length := by
  -- The rounds are those of the six phases, which call all observers.
  have called : (e.1.call.phase, e.1.targets) ∈
      Phase.all.map fun phase => (phase, registry.entries) := by
    rw [← h.calls]
    exact List.mem_map_of_mem he
  obtain ⟨phase, -, same⟩ := List.mem_map.1 called
  have targets : e.1.targets = registry.entries := (congrArg Prod.snd same).symm
  have booked := booked_after w.runId registry limits w.origin (w.acts inputs 6)
  obtain ⟨outcomes, settled⟩ := Option.isSome_iff_exists.1 (booked.settled h.free e he)
  -- There is one round for each phase, so it is found by its phase.
  have distinct : ((w.upTo registry limits inputs 6).world.ledger.map
      fun e => e.1.call.phase).Nodup := by
    rw [h.phases]
    decide
  have found : (w.upTo registry limits inputs 6).world.outcomesOf e.1.call.phase = outcomes := by
    rw [World.outcomesOf, find?_of_nodup distinct he, Option.bind_some, settled, Option.getD_some]
  obtain ⟨n, lt, rfl⟩ := List.mem_iff_getElem.1 he
  have length := (booked.accounts n _ outcomes
    ((List.getElem?_eq_getElem lt).trans (congrArg some (Prod.ext rfl settled)))).1
  exact ⟨targets, by rw [found, settled], by rw [found, length, targets]⟩

/-- The records in the name of the observer `o` are those of its own calls, phase by phase, since
names are distinct. -/
theorem resultsFrom {j : Nat} {o : Registration} (registered : registry.entries[j]? = some o) :
    (w.upTo registry limits inputs 6).orchestrator.report.resultsFrom o.name =
      Phase.all.flatMap fun phase =>
        ((w.upTo registry limits inputs 6).world.outcomesOf phase)[j]?.toList.flatMap
          (recordsOfCall phase o) := by
  have booked := booked_after w.runId registry limits w.origin (w.acts inputs 6)
  have own (e) (he : e ∈ (w.upTo registry limits inputs 6).world.ledger) :
      (recordsOfRound e.1 e.2).filter (fun record => record.source == o.name) =
        ((w.upTo registry limits inputs 6).world.outcomesOf e.1.call.phase)[j]?.toList.flatMap
          (recordsOfCall e.1.call.phase o) := by
    obtain ⟨targets, settled, -⟩ := h.mem_ledger he
    rw [filter_recordsOfRound, outcomesOfRound, targets, settled, Option.getD_some,
      filter_zip_named registry.distinct _ registered, List.flatMap_map]
  have results : (w.upTo registry limits inputs 6).orchestrator.results =
      (w.upTo registry limits inputs 6).world.records := booked.results
  rw [Report.resultsFrom, Orchestrator.report, results, World.records, List.filter_flatMap,
    ← h.phases, List.flatMap_map]
  exact List.flatMap_congr own

theorem yielded_eq {n : Nat} {c : Command} (next : (inputs.commands w.window)[n]? = some c)
    {observers : List Registration} (all : observers = registry.entries) {call : Call}
    {slots : List Slot} {yields : List Interval}
    (yielded : Yielded observers call
      ((w.asking registry limits inputs n c).updateScene fun s => s.stand .free slots)
      (w.upTo registry limits inputs (n + 1)) yields)
    (grows : (trace registry.entries (Due.ofPhases (Phase.all.take n))).length <
      (trace registry.entries (Due.ofPhases (Phase.all.take (n + 1)))).length) :
    yields = ((w.upTo registry limits inputs 6).world.outcomesOf call.phase).flatMap
      intervalsOfCall := by
  subst all
  have lt : n < 6 := (List.getElem?_eq_some_iff.1 next).1
  obtain ⟨rest, later⟩ : ∃ rest, w.upTo registry limits inputs 6 =
      (w.upTo registry limits inputs (n + 1)).after rest := exists_upTo (n + 1) lt
  cases yielded with
  | skipped _ same =>
    -- A phase that is skipped makes no calls.
    rw [← h.calls_upTo lt, ← (h.traced_asking next).calls] at grows
    have lengths := congrArg List.length same
    simp only [World.calls, List.length_map] at grows
    exact absurd lengths (Nat.ne_of_gt grows)
  | joined limits' outcomes _ length _ added =>
    have member : ((⟨registry.entries, call, limits'⟩, some outcomes) :
        JoinRequest × Option (List CallOutcome)) ∈
          (w.upTo registry limits inputs 6).world.ledger := by
      rw [later]
      refine (ledger_prefix_after _ rest).subset ?_
      rw [added]
      exact List.mem_append_right _ (List.mem_singleton_self _)
    obtain ⟨-, settled, -⟩ := h.mem_ledger member
    rw [← Option.some.inj settled]
    have outcomes_eq : (registry.entries.zip outcomes).map Prod.snd = outcomes :=
      List.map_snd_zip (Nat.le_of_eq length)
    rw [← outcomes_eq, List.flatMap_map, outcomes_eq]

/-- The final stream of a whole run is the stable order of what the recorder let in until
collection, of what the observers handed over and derived, and of what the recorder let in since. -/
theorem final : ∃ received,
    (w.upTo registry limits inputs 3).world.accepted =
      (w.upTo registry limits inputs 2).world.accepted ++ received ∧
    (w.upTo registry limits inputs 6).orchestrator.report.intervals.intervals =
      sortBy Interval.start
        ((w.upTo registry limits inputs 2).world.accepted ++
          ((w.upTo registry limits inputs 6).world.outcomesOf .collection).flatMap
            intervalsOfCall ++
          ((w.upTo registry limits inputs 6).world.outcomesOf .construction).flatMap
            intervalsOfCall ++ received) := by
  let collect : Command := .collect inputs.storageDir w.window
  let construct : Command := .construct inputs.resources w.window
  have second : (inputs.commands w.window)[1]? = some collect := rfl
  have third : (inputs.commands w.window)[2]? = some construct := rfl
  have fed (acts : List Act) := (Fed.new w.runId registry limits w.origin).after acts
  have observers {n : Nat} {c : Command} (next : (inputs.commands w.window)[n]? = some c) :
      (w.asking registry limits inputs n c).orchestrator.observers = registry.entries :=
    (h.traced_asking next).observers_eq
  -- What happens before a command is asked for is one list of acts from the start.
  have asking (n : Nat) (c : Command) : w.asking registry limits inputs n c =
      (Run.new w.runId registry limits w.origin).after
        (w.acts inputs n ++ (w.before c.phase).map .beside) :=
    (Run.after_append _ _ _).symm
  have fed_start : Fed (w.asking registry limits inputs 1 collect) := by
    rw [asking]
    exact fed _
  have fed_between : Fed (w.asking registry limits inputs 2 construct) := by
    rw [asking]
    exact fed _
  have waits : (w.asking registry limits inputs 1 collect).orchestrator.state.rank < 2 →
      (w.asking registry limits inputs 1 collect).scene.recorder.queue =
        (w.asking registry limits inputs 1 collect).world.accepted := by
    rw [asking]
    exact queue_eq_accepted w.runId registry limits w.origin _
  -- What collection makes of what waits stays until construction adds the rest.
  obtain ⟨two, drained, yields, raw⟩ := rawStream_of_collected
    (fed_start.rests (rests_stand (h.free_asking second) _)) waits (h.asked second)
  have kept := raw.kept ((w.before .construction).map .beside)
  have accepted := accepted_after (Nat.le_of_eq two.symm) drained
    ((w.before .construction).map .beside)
  have final := finalStream_of_constructed raw
    (fed_between.rests (rests_stand (h.free_asking third) _)) kept accepted (h.asked third)
  obtain ⟨derived, received, yielded, grown, sorted⟩ := final.sorted
  refine ⟨received, grown, ?_⟩
  obtain ⟨rest, later⟩ : ∃ rest, w.upTo registry limits inputs 6 =
      (w.upTo registry limits inputs 3).after rest := exists_upTo 3 (by decide)
  have report : (w.upTo registry limits inputs 6).orchestrator.report.intervals =
      (w.upTo registry limits inputs 3).orchestrator.final := by
    rw [later]
    exact (final.kept rest).2
  -- What was handed over in either phase is what the outcomes of its calls hold.
  have yields_eq := h.yielded_eq second (observers second) raw.yielded (Nat.lt_succ_self 1)
  have derived_eq := h.yielded_eq third (observers third) yielded (Nat.lt_succ_self 2)
  rw [report, sorted.unique (Timeline.stableSort_sort _), Timeline.intervals_sort, yields_eq,
    derived_eq]
  rfl

end Whole.Complete

/-! ## What a driver does is a whole run -/

theorem Run.stand_self {r : Run} (free : r.isFree = true) :
    (r.updateScene fun s => s.stand .free r.world.slots) = r := by
  have standing : r.scene.inner.standing = .free := of_decide_eq_true free
  obtain ⟨o, ⟨origin, clock, controls, recorder, started, files, emitted,
    ⟨rounds, accepted, standing', slots, present⟩⟩⟩ := r
  cases standing
  rfl

/-- While the window is open other things go on, as some moves, and a part of the schedule is left
for the commands that follow. -/
theorem Run.exists_observe {r q : Run} (free : r.isFree = true) {request : WindowRequest}
    {opened : Timestamp} (ran : r.perform (Conduct.observe platform request) = (.ok opened, q)) :
    ∃ (moves : List Move) (rest : List Slot),
      q = (r.after (moves.map .beside)).updateScene fun s => s.stand .free rest := by
  cases cancelled : r.orchestrator.cancelled with
  | true =>
    have same : r = q := by
      simpa [Conduct.observe, Progress.perform_bind, cancelled, Except.map]
        using congrArg Prod.snd ran
    exact ⟨[], r.world.slots, by rw [← same]; exact (Run.stand_self free).symm⟩
  | false =>
    obtain ⟨moves, rest, waited⟩ := Stage.exists_idle r.world.slots r.scene
    have same : r.updateScene (platform.awaitWindow request) = q := by
      simpa [Run.updateScene, Conduct.observe, Progress.perform_bind, cancelled, Except.map]
        using congrArg Prod.snd ran
    refine ⟨moves, rest, ?_⟩
    rw [← same, Run.after_beside]
    exact congrArg (fun scene : Stage => { r with scene }) waited

theorem Run.act_of_perform {r q : Run} (free : r.isFree = true) {c : Command} {slots : List Slot}
    (ran :
      (r.updateScene fun s => s.stand .free slots).perform (c.conduct platform) = (.ok (), q)) :
    q.isFree = true ∧ r.act (.command c slots) = q ∧
      (q.updateScene fun s => s.stand .free q.world.slots) = q := by
  have asked : Asked c (r.updateScene fun s => s.stand .free slots) (.ok ()) q := asked_of_ask ran
  have free' := asked.isFree_of_ok rfl
  refine ⟨free', ?_, Run.stand_self free'⟩
  rw [Run.act_command free]
  exact congrArg Prod.snd ran

/-- A schedule for each phase, as `Whole.slots` asks for one. -/
def inPhases (setup collection construction evaluation storage cleanup : List Slot) :
    Phase → List Slot
  | .setup => setup
  | .collection => collection
  | .construction => construction
  | .evaluation => evaluation
  | .storage => storage
  | .cleanup => cleanup

/-- What `Conduct.run` does under a schedule when it returns is a whole run that is `Complete`
unless it was cancelled, and what it returns is the report of that run. -/
theorem exists_whole_of_run {runId : String} {registry : Registry} {limits : Limits} {origin : Nat}
    {inputs : RunInputs} {slots : List Slot} {report : Report} {q : Run}
    (ran : ((Run.new runId registry limits origin).updateScene fun s => s.stand .free slots).perform
      (Conduct.run platform inputs) = (.ok report, q)) :
    ∃ w : Whole, w.runId = runId ∧ w.origin = origin ∧
      (w.upTo registry limits inputs 6).isFree = true ∧
      (w.upTo registry limits inputs 6).orchestrator.report = report := by
  -- The actions of the run, one after the other; each of them has returned.
  obtain ⟨⟨⟩, r₁, first, ran⟩ := Progress.perform_bind_eq_ok.1 ran
  obtain ⟨opened, r₂, observed, ran⟩ := Progress.perform_bind_eq_ok.1 ran
  obtain ⟨p, r₂', got, ran⟩ := Progress.perform_bind_eq_ok.1 ran
  cases got
  obtain ⟨⟨⟩, r₆, ran, rest⟩ := Progress.perform_bind_eq_ok.1 ran
  obtain ⟨⟨⟩, r₇, sixth, reported⟩ := Progress.perform_bind_eq_ok.1 rest
  obtain ⟨⟨⟩, r₃, second, ran⟩ := Progress.perform_bind_eq_ok.1 ran
  obtain ⟨⟨⟩, r₄, third, ran⟩ := Progress.perform_bind_eq_ok.1 ran
  obtain ⟨⟨⟩, r₅, fourth, fifth⟩ := Progress.perform_bind_eq_ok.1 ran
  cases reported
  -- Each phase is one act, under the schedule that the one before has left.
  obtain ⟨free₁, act₁, -⟩ := Run.act_of_perform (c := .setup inputs.access) rfl first
  obtain ⟨moves, left, rfl⟩ := Run.exists_observe free₁ observed
  let window : Window := ⟨opened, platform.wallClock
    (Run.updateScene (Run.after r₁ (moves.map .beside)) fun s => s.stand .free left).scene⟩
  have idle : (Run.after r₁ (moves.map .beside)).isFree = true := by
    rw [Run.after_beside]
    exact decide_eq_true
      ((Stage.standing_moves moves r₁.scene).trans (of_decide_eq_true free₁))
  obtain ⟨free₃, act₃, self₃⟩ :=
    Run.act_of_perform (c := .collect inputs.storageDir window) idle second
  rw [← self₃] at third
  obtain ⟨free₄, act₄, self₄⟩ :=
    Run.act_of_perform (c := .construct inputs.resources window) free₃ third
  rw [← self₄] at fourth
  obtain ⟨free₅, act₅, self₅⟩ := Run.act_of_perform (c := .evaluate) free₄ fourth
  rw [← self₅] at fifth
  obtain ⟨free₆, act₆, self₆⟩ := Run.act_of_perform
    (c := .store inputs.storageDir inputs.suffix inputs.resources) free₅ fifth
  rw [← self₆] at sixth
  obtain ⟨free₇, act₇, -⟩ := Run.act_of_perform (c := .cleanup) free₆ sixth
  -- Only while the window is open does anything go on between two phases.
  let w : Whole :=
    { runId, origin, window
      before := fun phase => if phase = .collection then moves else []
      slots := inPhases slots left (Run.world r₃).slots (Run.world r₄).slots (Run.world r₅).slots
        (Run.world r₆).slots }
  have one : w.upTo registry limits inputs 1 = r₁ := act₁
  have two : w.upTo registry limits inputs 2 = r₃ := by
    rw [Whole.upTo_succ rfl, Whole.asking, one]
    exact act₃
  have three : w.upTo registry limits inputs 3 = r₄ := by
    rw [Whole.upTo_succ rfl, Whole.asking, two]
    exact act₄
  have four : w.upTo registry limits inputs 4 = r₅ := by
    rw [Whole.upTo_succ rfl, Whole.asking, three]
    exact act₅
  have five : w.upTo registry limits inputs 5 = r₆ := by
    rw [Whole.upTo_succ rfl, Whole.asking, four]
    exact act₆
  have six : w.upTo registry limits inputs 6 = r₇ := by
    rw [Whole.upTo_succ rfl, Whole.asking, five]
    exact act₇
  exact ⟨w, rfl, rfl, by rw [six]; exact free₇, by rw [six]⟩

end Schedule
end Vigil
