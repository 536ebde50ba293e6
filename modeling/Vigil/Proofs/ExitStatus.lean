import Vigil.Program
import Vigil.Proofs.Escalation
import Vigil.Proofs.OwnInterval
import Vigil.Proofs.Results

/-!
# What the exit status tells

The program ends well only if its report was written, was not cancelled and has no failing record.
Its exit status, the line that it prints and the document of its records are made in different
places, and they agree however the calls of the observers end, whatever goes on beside the run and
whenever it is cancelled. A document that is not marked as cancelled stands for a run in which every
phase made its calls and no call was given up because of a cancellation.

The module introduces:

* `Verdict.Tells` and `Program.Exit.Agrees`, what a document tells of records, and when the end of
  the program agrees with it;
* `Schedule.Arrives`, what an action leads to if it returns, and `Schedule.Candid`, the runs that
  are marked as cancelled if something was skipped or given up;
* `Runner.executeUnder`, a session of a runner at some pace, and `Runner.Truthful`, what is certain
  of it.
-/

namespace Vigil

open Schedule (Pace goOn conductUnder Run World Stage)

/-! ## What a document tells -/

namespace Verdict

theorem count_add_count_add_count (verdicts : List Verdict) :
    verdicts.count .pass + verdicts.count .fail + verdicts.count .flake = verdicts.length := by
  induction verdicts with
  | nil => rfl
  | cons v rest ih =>
    rw [List.length_cons, ← ih]
    cases v <;> simp <;> omega

/-- A `document` of the records of a run that is over tells how its records came out and whether the
run was cancelled, as one who only reads the file can see. -/
structure Tells (document : Json.Value) (cancelled : Bool) (verdicts : List Verdict) : Prop where
  cancelled : document.get? "cancelled" = some (.bool cancelled)
  /-- The records come in their order, each with its outcome in the spelling of `Verdict`. -/
  results : ∃ records, document.get? "results" = some (.array records) ∧
    records.map (fun record => record.get? "outcome") =
      verdicts.map fun v => some (.string v.name)
  counts : document.get? "counts" = some (.object
    [("passed", .nat (verdicts.count .pass)), ("failed", .nat (verdicts.count .fail)),
     ("flaked", .nat (verdicts.count .flake))])
  total : verdicts.count .pass + verdicts.count .fail + verdicts.count .flake = verdicts.length
  state : document.get? "state" = some (.string "cleaned_up")

end Verdict

/-- The tally of `records` counts their verdicts: what the summary line says is what the records
say. -/
theorem Counts.tally_eq_count (records : List Record) :
    tally records =
      ⟨(records.map Record.verdict).count .pass, (records.map Record.verdict).count .fail,
        (records.map Record.verdict).count .flake⟩ := by
  rw [tally_eq]
  simp only [List.count_eq_countP, List.countP_map]
  rfl

/-- The document of a report that was cleaned up tells of its records, if its counts are those of
its records. -/
theorem Report.tells {r : Report} (counts : r.counts = Counts.tally r.results)
    (state : r.state = .cleanedUp) :
    Verdict.Tells r.resultsDocument r.cancelled (r.results.map Record.verdict) where
  cancelled := rfl
  results := by
    refine ⟨r.results.map Record.encode, rfl, ?_⟩
    rw [List.map_map, List.map_map]
    rfl
  counts := by
    change some r.counts.encode = _
    rw [counts, Counts.tally_eq_count]
    rfl
  total := Verdict.count_add_count_add_count _
  state := by
    change some (Json.Value.string r.state.name) = _
    rw [state]
    rfl

/-! ## How the program ends -/

/-- The end of the program agrees with a document that tells of records with these `verdicts`. -/
structure Program.Exit.Agrees (exit : Exit) (cancelled : Bool) (verdicts : List Verdict) :
    Prop where
  /-- The program ends well if no check failed and the run was not cancelled, and only then. A check
  that held only some of the time is no failure. -/
  code : exit.code = 0 ↔ cancelled = false ∧ .fail ∉ verdicts
  /-- The numbers that are printed are those of the document, and the mark of a cancellation stands
  behind them exactly if it is marked. -/
  line : exit.output.head? = some
    (toString (verdicts.count .pass) ++ " passed, " ++ toString (verdicts.count .fail)
      ++ " failed, " ++ toString (verdicts.count .flake) ++ " flaked"
      ++ if cancelled then " (cancelled)" else "")
  marked : ∀ line ∈ exit.output.head?, (∃ counts, line = counts ++ " (cancelled)") ↔
    cancelled = true

/-- A line without the mark of a cancellation does not end in it, so the printed line tells the two
apart. -/
theorem Report.unmarked_ne_marked (counts other : String) :
    counts ++ " flaked" ≠ other ++ " (cancelled)" := by
  intro same
  have last := congrArg (fun line => line.toList.getLast?) same
  simp at last

theorem Program.agrees_exitOfSession {summary : Summary}
    (counts : summary.report.counts = Counts.tally summary.report.results) :
    (exitOfSession (.ok summary)).Agrees summary.report.cancelled
      (summary.report.results.map Record.verdict) := by
  obtain ⟨report, suffix, paths⟩ := summary
  -- All that the exit is made of can be read off the records.
  have tally := counts.trans (Counts.tally_eq_count _)
  refine ⟨?_, ?_, ?_⟩
  · have failures : report.hasFailures = false ↔
        Verdict.fail ∉ report.results.map Record.verdict := by
      rw [← List.count_eq_zero, Report.hasFailures, tally, decide_eq_false_iff_not,
        Nat.not_lt, Nat.le_zero]
    change (if report.cancelled || report.hasFailures then 1 else 0) = 0 ↔ _
    rw [← failures]
    cases report.cancelled <;> cases report.hasFailures <;> decide
  · change some report.summaryLine = _
    rw [Report.summaryLine, tally]
  · rintro line ⟨⟩
    change (∃ counts, report.summaryLine = counts ++ " (cancelled)") ↔ report.cancelled = true
    rw [Report.summaryLine]
    cases report.cancelled with
    | true => exact iff_of_true ⟨_, rfl⟩ rfl
    | false =>
      refine iff_of_false ?_ Bool.false_ne_true
      -- A line without the mark does not end as the mark does.
      rintro ⟨other, same⟩
      exact Report.unmarked_ne_marked _ other (by simpa using same)

namespace Schedule

variable {observers : List Registration} {phases : List Phase} {p q : Run}

/-! ## Actions that return -/

/-- From wherever `P` holds, an `action` that returns leads to where `Q` holds. Each step of a
session has one such lemma. -/
def Arrives {α : Type} (P : Run → Prop) (action : Conduct World α) (Q : α → Run → Prop) : Prop :=
  ∀ p a q, P p → p.perform action = (.ok a, q) → Q a q

theorem Arrives.bind {α β : Type} {P : Run → Prop} {x : Conduct World α} {Q : α → Run → Prop}
    {f : α → Conduct World β} {R : β → Run → Prop} (first : Arrives P x Q)
    (rest : ∀ a, Arrives (Q a) (f a) R) : Arrives P (x >>= f) R := by
  intro p b q start performed
  obtain ⟨a, r, ran, went⟩ := Progress.perform_bind_eq_ok.1 performed
  exact rest a r b q (first p a r start ran) went

/-! ## Runs that are marked -/

/-- The runs `p` and `q` have made the same calls, with the same outcomes, and have come equally
far. -/
structure Alike (p q : Run) : Prop where
  observers : q.orchestrator.observers = p.orchestrator.observers
  state : q.orchestrator.state = p.orchestrator.state
  cancelled : q.orchestrator.cancelled = p.orchestrator.cancelled
  ledger : q.world.ledger = p.world.ledger
  started : q.scene.started = p.scene.started
  standing : q.world.standing = p.world.standing

theorem alike_moves (p : Run) (moves : List Move) :
    Alike p { p with scene := moves.foldl Stage.move p.scene } where
  observers := rfl
  state := rfl
  cancelled := rfl
  ledger := ledger_moves moves p.scene
  started := (drift_moves moves p.scene).started
  standing := Stage.standing_moves moves p.scene

/-- Whether what was recorded is taken at once or step by step makes no difference to the calls. -/
theorem alike_settleUnder (course : Course) (c : Command) (settlement : Option Settlement)
    (p : Run) : Alike (c.settle settlement p) (settleUnder course c settlement p) := by
  cases c with
  | collect dir window =>
    obtain ⟨moves, taken⟩ := Stage.take_eq course.takes p.scene
    have moved := alike_moves p moves
    simp only [settleUnder, taken]
    exact ⟨rfl, rfl, rfl, moved.ledger, moved.started, moved.standing⟩
  | construct resources window =>
    obtain ⟨moves, taken⟩ := Stage.take_eq course.takes p.scene
    have moved := alike_moves p moves
    let drained : Run := { p with scene := (moves.foldl Stage.move p.scene).drained }
    have closed := alike_moves drained course.closes
    simp only [settleUnder, taken]
    exact ⟨rfl, rfl, rfl, closed.ledger.trans moved.ledger, closed.started.trans moved.started,
      closed.standing.trans moved.standing⟩
  | _ => exact ⟨rfl, rfl, rfl, rfl, rfl, rfl⟩

/-- The run `p`, of these `observers`, was asked for `phases`. Unless it is marked as cancelled, it
has made all their calls and given none of them up because of a cancellation. -/
structure Candid (observers : List Registration) (phases : List Phase) (p : Run) : Prop where
  traced : ∃ made, Traced observers phases made p
  free : p.isFree = true
  unabandoned : p.orchestrator.cancelled = false → p.world.Unabandoned

namespace Candid

theorem new (runId : String) (registry : Registry) (limits : Limits) (s : Stage)
    (fresh : s.inner.ledger = []) (started : s.started = false) (free : s.inner.standing = .free) :
    Candid registry.entries [] (Progress.new runId registry limits s) where
  traced := by
    refine ⟨{}, rfl, ?_, started, Nat.le_refl 0, fun _ => rfl, fun _ => rfl, fun _ _ => rfl⟩
    change s.inner.ledger.map _ = []
    rw [fresh]
    rfl
  free := decide_eq_true free
  unabandoned _ e he := by
    rw [show Run.world _ = s.inner from rfl, fresh] at he
    cases he

theorem congr (h : Candid observers phases p) (alike : Alike p q) : Candid observers phases q := by
  have free : q.isFree = p.isFree := by rw [Run.isFree, alike.standing, Run.isFree]
  obtain ⟨made, traced⟩ := h.traced
  refine ⟨⟨made, ?_⟩, free.trans h.free, fun going => ?_⟩
  · exact
      { observers_eq := alike.observers.trans traced.observers_eq
        calls := by rw [World.calls, alike.ledger, ← World.calls, traced.calls]
        started := alike.started.trans traced.started
        count_le := traced.count_le
        state := by rw [free, alike.state]; exact traced.state
        ended := by rw [free]; exact traced.ended
        level := by rw [free, alike.cancelled]; exact traced.level }
  · unfold World.Unabandoned
    rw [alike.ledger]
    exact h.unabandoned (alike.cancelled ▸ going)

/-- A command that returns has done what was due, or the run is marked: the step lemma of
`Candid`. -/
theorem commanded (h : Candid observers phases p) {c : Command}
    (returned : Commanded platform.Makes c p (.ok ()) q) :
    Candid observers (phases ++ [c.phase]) q := by
  obtain ⟨made, traced⟩ := h.traced
  have asked := asked_of_commanded returned
  refine ⟨traced.asks h.free asked, asked.isFree_of_ok h.free, fun going => ?_⟩
  cases returned with
  | skipped _ _ cancelled =>
    -- A phase that is skipped marks the run.
    rw [Command.cancelled_settle] at going
    have marked : p.isCancelled = false := going
    rw [cancelled] at marked
    cases marked
  | joined outcomes scene _ _ unseen joins =>
    have before : p.orchestrator.cancelled = false := (Bool.or_eq_false_iff.1 unseen).1
    have start : (p.sceneOf c.phase).inner.Unabandoned := by
      rw [p.inner_sceneOf c.phase]
      exact h.unabandoned before
    rw [Command.cancelled_settle] at going
    rw [Run.world, Command.inner_settle]
    have kept : scene.inner.Unabandoned := unabandoned_of_makes start joins fun _ => going
    exact kept
  | again => exact h.unabandoned going
  | cleaned outcomes scene _ _ joins =>
    -- Cleanup heeds no cancellation, so it gives no call up because of one.
    have kept : scene.inner.Unabandoned :=
      unabandoned_of_makes (h.unabandoned going) joins fun heeds => absurd rfl heeds
    exact kept

theorem state (h : Candid observers Phase.all p) : p.orchestrator.state = .cleanedUp := by
  obtain ⟨made, traced⟩ := h.traced
  exact traced.state h.free

theorem calls (h : Candid observers Phase.all p) (going : p.orchestrator.cancelled = false) :
    p.world.calls = Phase.all.map fun phase => (phase, observers) := by
  obtain ⟨made, traced⟩ := h.traced
  rw [traced.calls, traced.level h.free going]
  rfl

end Candid

/-! ## The steps of a session -/

theorem arrives_goOn (moves : List Move) :
    Arrives (Candid observers phases) (Conduct.updateScene (goOn moves))
      fun _ => Candid observers phases := by
  rintro p _ _ h ⟨⟩
  exact h.congr (alike_moves p moves)

theorem arrives_recordInterval (i : Interval) :
    Arrives (Candid observers phases) (Session.recordInterval i)
      fun _ => Candid observers phases := by
  rintro p _ _ h ⟨⟩
  exact h.congr ⟨rfl, rfl, rfl, rfl, rfl, rfl⟩

theorem arrives_observe (request : WindowRequest) :
    Arrives (Candid observers phases) (Conduct.observe platform request)
      fun _ => Candid observers phases := by
  intro p opened q h observed
  rw [Conduct.observe, Progress.perform_bind, Progress.perform_get] at observed
  cases cancelled : p.orchestrator.cancelled with
  | true =>
    simp only [cancelled] at observed
    cases observed
    exact h
  | false =>
    simp only [cancelled] at observed
    cases observed
    obtain ⟨moves, rest, waited⟩ := Stage.exists_idle p.scene.inner.slots p.scene
    change Candid observers phases { p with scene := Stage.idle p.scene.inner.slots p.scene }
    rw [waited]
    have later := h.congr (alike_moves p moves)
    exact later.congr ⟨rfl, rfl, rfl, rfl, rfl, (of_decide_eq_true later.free).symm⟩

theorem arrives_conduct (c : Command) :
    Arrives (Candid observers phases) (c.conduct platform)
      fun _ => Candid observers (phases ++ [c.phase]) := by
  intro p _ q h performed
  have commanded := commanded_conduct platform c p
  rw [performed] at commanded
  exact h.commanded commanded

theorem arrives_conductUnder (course : Course) {c : Command} (working : c.phase ≠ .cleanup) :
    Arrives (Candid observers phases) (conductUnder course c)
      fun _ => Candid observers (phases ++ [c.phase]) := by
  intro p _ q h performed
  have plain := Command.perform_conduct platform working p
  rw [perform_conductUnder course working] at performed
  rcases phased : p.perform (Conduct.phase platform (c.call p)) with ⟨halt | settlement, r⟩
  all_goals rw [phased] at performed plain
  · cases performed
  · cases performed
    exact (arrives_conduct c p _ _ h plain).congr (alike_settleUnder course c settlement r)

end Schedule

open Schedule (Arrives Candid arrives_goOn arrives_conduct arrives_conductUnder)

namespace Session

variable (s : Session) (pace : Pace) {observers : List Registration}

theorem arrives_closeBy (length : Option Duration) :
    Arrives (Candid observers []) (s.closeBy pace.driver length)
      fun _ => Candid observers [.setup] := by
  have opens : Arrives (Candid observers []) (pace.driver.setUp s.inputs.access)
      fun _ => Candid observers [.setup] := by
    unfold Driver.setUp
    refine (arrives_goOn (pace.between .pending)).bind fun _ => ?_
    refine (arrives_conduct (.setup s.inputs.access)).bind fun _ => ?_
    exact arrives_goOn pace.opens
  unfold closeBy
  refine opens.bind fun _ => ?_
  refine (Schedule.arrives_observe (.span length)).bind fun opened => ?_
  refine (arrives_goOn [.endWindow]).bind fun _ => ?_
  refine (arrives_goOn pace.ends).bind fun _ => ?_
  rintro p _ _ h ⟨⟩
  exact h

theorem arrives_finishBy (window : Window) :
    Arrives (Candid observers [.setup]) (s.finishBy pace.driver window) fun report q =>
      report = q.orchestrator.report ∧ Candid observers Phase.all q := by
  have collects : Arrives (Candid observers [.setup]) (s.collectBy pace.driver window)
      fun _ => Candid observers [.setup, .collection] := by
    unfold collectBy Driver.collect
    refine (arrives_goOn pace.records).bind fun _ => ?_
    refine (Schedule.arrives_recordInterval window.interval).bind fun _ => ?_
    refine (arrives_goOn (pace.between .collecting)).bind fun _ => ?_
    exact arrives_conductUnder pace.collects (c := .collect _ _) nofun
  refine collects.bind fun _ => ?_
  unfold Driver.complete
  refine (arrives_goOn (pace.between .collected)).bind fun _ => ?_
  refine (arrives_conductUnder pace.constructs (c := .construct _ _) nofun).bind fun _ => ?_
  refine (arrives_goOn (pace.between .constructed)).bind fun _ => ?_
  refine (arrives_conduct .evaluate).bind fun _ => ?_
  refine (arrives_goOn (pace.between .evaluated)).bind fun _ => ?_
  refine (arrives_conduct (.store _ _ _)).bind fun _ => ?_
  refine (arrives_goOn (pace.between .persisted)).bind fun _ => ?_
  refine (arrives_conduct .cleanup).bind fun _ => ?_
  refine (arrives_goOn (pace.between .cleanedUp)).bind fun _ => ?_
  rintro p _ _ h ⟨⟩
  exact ⟨rfl, h.congr ⟨rfl, rfl, rfl, rfl, rfl, rfl⟩⟩

/-- The document of the records lies where the summary says, and it is that of the report. -/
theorem arrives_writeReport (report : Report) :
    Arrives (fun q => report = q.orchestrator.report ∧ Candid observers Phase.all q)
      (s.writeReport report) fun summary r =>
        summary.report = r.orchestrator.report ∧ Candid observers Phase.all r ∧
        r.scene.files.contentAt summary.paths.results =
          .ok (Text.encodeUtf8 summary.report.resultsDocument.prettyText) := by
  rintro q summary r ⟨same, candid⟩ performed
  simp only [writeReport, Progress.perform_bind, Progress.perform_get] at performed
  rcases writes : report.write q.scene.files ⟨s.inputs.storageDir⟩ s.inputs.suffix
    with ⟨refused | paths, files⟩
  all_goals rw [writes] at performed
  · cases performed
  · cases performed
    obtain ⟨-, -, -, read⟩ := Report.contentAt_of_write writes
    exact ⟨same, candid.congr ⟨rfl, rfl, rfl, rfl, rfl, rfl⟩, read⟩

theorem arrives_executeBy (length : Option Duration) :
    Arrives (Candid observers []) (s.executeBy pace.driver length) fun summary r =>
      summary.report = r.orchestrator.report ∧ Candid observers Phase.all r ∧
      r.scene.files.contentAt summary.paths.results =
        .ok (Text.encodeUtf8 summary.report.resultsDocument.prettyText) := by
  unfold executeBy reportBy
  refine Arrives.bind ?_ fun report => s.arrives_writeReport report
  refine (s.arrives_closeBy pace length).bind fun window => ?_
  exact s.arrives_finishBy pace window

end Session

namespace Runner

/-- Executes a session of the runner `r` at some `pace` in some `world`, from the `files` that there
are. The window stays open as long as the configuration says. -/
def executeUnder (r : Runner) (runId suffix : String) (pace : Pace) (files : FileTree)
    (origin : Nat) (world : World) : Except Halt Summary × Run :=
  let s := r.prepare suffix
  (r.begin runId { origin, files, inner := world }).perform
    (s.executeBy pace.driver s.windowLength)

/-- When nothing goes on beside it a session of `r` is the one that `Session.execute` executes. -/
theorem executeUnder_nothing (r : Runner) (runId suffix : String) (files : FileTree)
    (origin : Nat) (world : World) :
    r.executeUnder runId suffix {} files origin world =
      (r.begin runId { origin, files, inner := world }).perform
        ((r.prepare suffix).execute Schedule.platform) := by
  rw [executeUnder, Session.executeBy_nothing, Session.execute]

/-- What is certain of a session of the runner `r` at some `pace` in some `world`, whatever it
answers and whatever run it leaves behind. -/
structure Truthful (r : Runner) (runId suffix : String) (pace : Pace) (files : FileTree)
    (origin : Nat) (world : World) : Prop where
  /-- Where a report was written, its document of records tells how the program ends. It is marked
  as cancelled unless all phases made their calls and none was given up because of that. -/
  written : ∀ (summary : Summary) (run : Run),
    r.executeUnder runId suffix pace files origin world = (.ok summary, run) →
    ∃ (document : Json.Value) (cancelled : Bool) (verdicts : List Verdict),
      run.scene.files.contentAt summary.paths.results =
        .ok (Text.encodeUtf8 document.prettyText) ∧
      Verdict.Tells document cancelled verdicts ∧
      (Program.exitOfSession (.ok summary)).Agrees cancelled verdicts ∧
      (cancelled = false →
        run.world.calls = Phase.all.map (fun phase => (phase, r.registry.entries)) ∧
          run.world.Unabandoned)
  /-- Without a report the program does not end well. -/
  unwritten : ∀ (halt : Halt) (run : Run),
    r.executeUnder runId suffix pace files origin world = (.error halt, run) →
    (Program.exitOfSession (.error halt)).code ≠ 0
  /-- When nothing goes on beside it the session is the one that `Session.execute` executes. -/
  executed : r.executeUnder runId suffix {} files origin world =
    (r.begin runId { origin, files, inner := world }).perform
      ((r.prepare suffix).execute Schedule.platform)

/-- The exit status of the program, the line that it prints and the document of the records agree,
whatever configuration its runner was made from, whichever observers take part, however their calls
end and whenever the run is cancelled. -/
theorem exit_status_is_truthful (r : Runner) (runId suffix : String) (pace : Pace)
    (files : FileTree) (origin : Nat) (slots : List Schedule.Slot) (present : Timestamp) :
    r.Truthful runId suffix pace files origin { slots, present } where
  written summary run executed := by
    have start : Candid r.registry.entries []
        (r.begin runId { origin, files, inner := { slots, present } }) :=
      .new runId r.registry r.config.lifecycle.limits _ rfl rfl rfl
    obtain ⟨report, candid, read⟩ :=
      (r.prepare suffix).arrives_executeBy pace _ _ summary run start executed
    have counts : summary.report.counts = Counts.tally summary.report.results := by
      rw [report]
      rfl
    have state : summary.report.state = .cleanedUp := by
      rw [report]
      exact candid.state
    refine ⟨summary.report.resultsDocument, summary.report.cancelled, _, read,
      Report.tells counts state, Program.agrees_exitOfSession counts, fun going => ?_⟩
    -- What is known of the run at its end is also known of its report.
    rw [report] at going
    exact ⟨candid.calls going, candid.unabandoned going⟩
  unwritten halt _ _ := by
    cases halt <;> exact Nat.succ_ne_zero _
  executed := r.executeUnder_nothing runId suffix files origin _

/-- A check fails, and the run is cancelled too late for a phase to be skipped: the report is not
marked, and the program still does not end well. -/
example :
    let runner : Runner := ⟨{ general := { storageDir := "/out" } }, Schedule.singleRegistry⟩
    let slots := Schedule.served 0 [.returned {}] ++ [.run] ++ Schedule.served 1 [.returned {}] ++
      Schedule.served 2 [.returned {}] ++
      Schedule.served 3 [.returned { records := [.fail "no restarts" "two pods restarted"] }] ++
      Schedule.served 4 [.returned {}] ++ Schedule.served 5 [.returned {}]
    let pace : Pace := { between := fun now => if now = .persisted then [.cancelRun] else [] }
    Program.exitOfSession (runner.executeUnder "run" "" pace {} 0 { slots }).1 =
      ⟨1, ["0 passed, 1 failed, 0 flaked", "results: /out/observer-results.json"], ""⟩ := by
  decide +kernel

end Runner
end Vigil
