import Vigil.Proofs.Driver
import Vigil.Proofs.Files

/-!
# When reports reach the disk

The intervals of a report are written before its records, and an instant before 1970 has no written
form. So where both files can be written, a report whose intervals all have dates reaches the disk
with every record, and otherwise nothing of it does.

The module introduces:

* `Interval.Dated`, when an interval has a written form;
-/

namespace Vigil

theorem Timestamp.isSome_encode?_iff (t : Timestamp) :
    t.encode?.isSome = true ↔ Timestamp.epoch ≤ t := by
  change _ ↔ 0 ≤ t.nanos
  unfold encode?
  split
  · next negative => simp [Int.not_le.2 negative]
  · next dated => simp [Int.not_lt.1 dated]

/-- Neither end of the interval lies before 1970, so that it has dates that can be written. -/
structure Interval.Dated (i : Interval) : Prop where
  start : Timestamp.epoch ≤ i.start
  finish : ∀ t ∈ i.finish, Timestamp.epoch ≤ t

theorem Interval.isSome_encode?_iff (i : Interval) : i.encode?.isSome = true ↔ i.Dated := by
  have finish : (encodeFinish? i.finish).isSome = true ↔
      ∀ t ∈ i.finish, Timestamp.epoch ≤ t := by
    cases i.finish with
    | none => simp [encodeFinish?]
    | some t => simpa [encodeFinish?] using t.isSome_encode?_iff
  have both : i.encode?.isSome = true ↔
      i.start.encode?.isSome = true ∧ (encodeFinish? i.finish).isSome = true := by
    unfold encode?
    cases i.start.encode? <;> cases encodeFinish? i.finish <;> simp
  rw [both, Timestamp.isSome_encode?_iff, finish]
  exact ⟨fun h => ⟨h.1, h.2⟩, fun h => ⟨h.start, h.finish⟩⟩

def Timeline.Dated (t : Timeline) : Prop := ∀ i ∈ t.intervals, i.Dated

theorem Timeline.isSome_encode?_iff (t : Timeline) : t.encode?.isSome = true ↔ t.Dated := by
  have all (is : List Interval) :
      (is.mapM Interval.encode?).isSome = true ↔ ∀ i ∈ is, i.Dated := by
    induction is with
    | nil => simp
    | cons i rest ih =>
      rw [List.forall_mem_cons, ← ih, ← i.isSome_encode?_iff, List.mapM_cons]
      cases i.encode? <;> cases rest.mapM Interval.encode? <;> simp
  unfold encode? Dated
  rw [Option.isSome_map]
  exact all t.intervals

/-- The path of a file lies in the directory of the sink, right below its root. -/
theorem Sink.filePath_eq_ok {s : Sink} {file path : String} (h : s.filePath file = .ok path) :
    Path.IsName file ∧ path = Path.join s.root file := by
  unfold filePath at h
  cases checked : checkName file with
  | error e =>
    rw [checked] at h
    cases h
  | ok =>
    rw [checked] at h
    cases h
    exact ⟨Path.isName_of_checkName checked, rfl⟩

theorem Sink.reportPaths_eq_ok {s : Sink} {suffix : String} {paths : ReportPaths}
    (h : s.reportPaths suffix = .ok paths) : ∃ first second, Path.IsName first ∧
      Path.IsName second ∧ first ≠ second ∧ paths.intervals = Path.join s.root first ∧
      paths.results = Path.join s.root second := by
  unfold reportPaths at h
  cases one : s.filePath ("e2e-intervals" ++ suffix ++ ".json") with
  | error e =>
    rw [one] at h
    cases h
  | ok intervals =>
    rw [one] at h
    cases two : s.filePath ("observer-results" ++ suffix ++ ".json") with
    | error e =>
      rw [two] at h
      cases h
    | ok results =>
      rw [two] at h
      cases h
      obtain ⟨first, rfl⟩ := Sink.filePath_eq_ok one
      obtain ⟨second, rfl⟩ := Sink.filePath_eq_ok two
      refine ⟨_, _, first, second, ?_, rfl, rfl⟩
      -- The names begin with different characters.
      intro same
      have heads := congrArg (fun name => name.toList.head?) same
      simp at heads

namespace Report

variable {r : Report} {files : FileTree} {sink : Sink} {suffix : String} {paths : ReportPaths}

/-- A report with dates is written as a whole where both files can be written, into the two files of
`paths`. -/
theorem write_of_dated (named : sink.reportPaths suffix = .ok paths)
    (intervals : files.Takes paths.intervals) (results : files.Takes paths.results)
    (dated : r.intervals.Dated) :
    ∃ stream files', r.intervals.encode? = some stream ∧
      r.write files sink suffix = (.ok paths, files') ∧
      files'.contentAt paths.intervals = .ok (Text.encodeUtf8 stream.prettyText) ∧
      files'.contentAt paths.results = .ok (Text.encodeUtf8 r.resultsDocument.prettyText) := by
  -- The records always have a written form, so only the intervals could be refused.
  obtain ⟨stream, encoded⟩ := Option.isSome_iff_exists.1 (r.intervals.isSome_encode?_iff.2 dated)
  obtain ⟨first, second, one, two, apart, here, there⟩ := Sink.reportPaths_eq_ok named
  rw [here] at intervals
  rw [there] at results
  obtain ⟨t, t', puts, also, read, read'⟩ := FileTree.put_beside one two apart intervals results
    (Text.encodeUtf8 stream.prettyText) (Text.encodeUtf8 r.resultsDocument.prettyText)
  refine ⟨stream, t', encoded, ?_, ?_, ?_⟩
  · simp only [write, named, encoded, writeValue, writeOctets, here, there, puts, also]
  · rw [here]
    exact read
  · rw [there]
    exact read'

/-- A report with an instant before 1970 is not written at all, whether the files could be or
not. -/
theorem write_of_not_dated (named : sink.reportPaths suffix = .ok paths)
    (undated : ¬r.intervals.Dated) : r.write files sink suffix =
      (.error (.unwritable paths.intervals Timestamp.unwritableReason), files) := by
  have none : r.intervals.encode? = none := by
    rw [← Option.not_isSome_iff_eq_none, Timeline.isSome_encode?_iff]
    exact undated
  simp only [write, named, none, writeValue]

theorem reportPaths_of_write {files' : FileTree}
    (written : r.write files sink suffix = (.ok paths, files')) :
    sink.reportPaths suffix = .ok paths := by
  unfold write at written
  split at written
  · cases written
  · next found named =>
    rw [named]
    split at written
    · cases written
    · split at written
      · cases written
      · cases written
        rfl

/-- Both files of a report that was written hold it, in the pretty texts of its stream and of its
document. -/
theorem contentAt_of_write {files' : FileTree}
    (written : r.write files sink suffix = (.ok paths, files')) :
    ∃ stream, r.intervals.encode? = some stream ∧
      files'.contentAt paths.intervals = .ok (Text.encodeUtf8 stream.prettyText) ∧
      files'.contentAt paths.results = .ok (Text.encodeUtf8 r.resultsDocument.prettyText) := by
  unfold write at written
  cases named : sink.reportPaths suffix with
  | error e => simp [named] at written
  | ok found =>
    obtain ⟨first, second, one, two, apart, here, there⟩ := Sink.reportPaths_eq_ok named
    simp only [named, here, there, writeValue, writeOctets] at written
    cases encoded : r.intervals.encode? with
    | none => simp [encoded] at written
    | some stream =>
      rw [encoded] at written
      cases puts : files.put (Path.join sink.root first)
        (Text.encodeUtf8 stream.prettyText) with | mk done t =>
      cases done with
      | error e => simp [puts] at written
      | ok =>
        cases also : t.put (Path.join sink.root second)
          (Text.encodeUtf8 r.resultsDocument.prettyText) with | mk done' t' =>
        cases done' with
        | error e => simp [puts, also] at written
        | ok =>
          simp only [puts, also] at written
          cases written
          -- The second file stands beside the first one, so it leaves it as it is.
          obtain ⟨read, read'⟩ := FileTree.contentAt_beside one two apart puts also
          exact ⟨stream, rfl, here ▸ read, there ▸ read'⟩

end Report

namespace Progress

variable {ε : Type} {p q : Progress ε} {platform : Platform ε}

theorem final_of_phase {call : Call} {answer : Except Halt (Option Settlement)}
    (performed : p.perform (Conduct.phase platform call) = (answer, q)) :
    q.orchestrator.final = p.orchestrator.final := by
  cases phaseResult performed <;> rfl

theorem final_of_evaluate {answer : Except Halt Unit}
    (performed : p.perform (Conduct.evaluate platform) = (answer, q)) :
    q.orchestrator.final = p.orchestrator.final := by
  simp only [Conduct.evaluate, perform_bind, perform_get] at performed
  rcases phase : p.perform (Conduct.phase platform (.evaluation p.orchestrator.final))
    with ⟨_ | _, q⟩ <;>
  · rw [phase] at performed
    cases performed
    exact final_of_phase phase

theorem final_of_store {dir suffix : String} {resources : Resources} {answer : Except Halt Unit}
    (performed : p.perform (Conduct.store platform dir suffix resources) = (answer, q)) :
    q.orchestrator.final = p.orchestrator.final := by
  simp only [Conduct.store, perform_bind, perform_get] at performed
  rcases phase : p.perform
    (Conduct.phase platform (.storage dir suffix p.orchestrator.final resources)) with
    ⟨_ | _, q⟩ <;>
  · rw [phase] at performed
    cases performed
    exact final_of_phase phase

theorem final_of_cleanup {answer : Except Halt Unit}
    (performed : p.perform (Conduct.cleanup platform) = (answer, q)) :
    q.orchestrator.final = p.orchestrator.final := by
  cases cleanupResult performed <;> rfl

end Progress

namespace Session

variable {ε : Type}

variable {s : Session} {platform : Platform ε} {length : Option Duration}
  {p q o r r' : Progress ε} {report : Report}

/-- The report of a session is that of its orchestrator. Its intervals stay as they were
constructed. -/
theorem constructed_of_completed
    (completed : p.perform (s.reportBy (.quiet platform) length) = (.ok report, q)) :
    report = q.orchestrator.report ∧ ∃ window o r r',
      p.perform (s.closeBy (.quiet platform) length) = (.ok window, o) ∧
      o.perform (s.collectBy (.quiet platform) window) = (.ok (), r) ∧
      r.perform (Conduct.construct platform s.inputs.resources window) = (.ok (), r') ∧
      q.orchestrator.final = r'.orchestrator.final := by
  obtain ⟨window, o, closed, completed⟩ := Progress.perform_bind_eq_ok.1 completed
  obtain ⟨⟨⟩, r, collected, completed⟩ := Progress.perform_bind_eq_ok.1 completed
  rw [Driver.complete_quiet] at completed
  obtain ⟨⟨⟩, p₁, constructed, completed⟩ := Progress.perform_bind_eq_ok.1 completed
  obtain ⟨⟨⟩, p₂, evaluated, completed⟩ := Progress.perform_bind_eq_ok.1 completed
  obtain ⟨⟨⟩, p₃, stored, completed⟩ := Progress.perform_bind_eq_ok.1 completed
  obtain ⟨⟨⟩, p₄, released, reported⟩ := Progress.perform_bind_eq_ok.1 completed
  cases reported
  refine ⟨rfl, window, o, r, p₁, closed, collected, constructed, ?_⟩
  change p₄.orchestrator.final = p₁.orchestrator.final
  rw [Progress.final_of_cleanup released, Progress.final_of_store stored,
    Progress.final_of_evaluate evaluated]

/-- Whatever the observers derive is in the report, and so in what is to be written. -/
theorem mem_report {window : Window} {settlement : Option Settlement}
    (completed : p.perform (s.reportBy (.quiet platform) length) = (.ok report, q))
    (closed : p.perform (s.closeBy (.quiet platform) length) = (.ok window, o))
    (collected : o.perform (s.collectBy (.quiet platform) window) = (.ok (), r))
    (derived : r.perform (Conduct.phase platform
      (.construction r.orchestrator.raw s.inputs.resources window)) = (.ok settlement, r'))
    {i : Interval} (member : i ∈ (settlement.getD {}).intervals) :
    i ∈ report.intervals.intervals := by
  obtain ⟨rfl, _, _, _, p', same, same', constructed, final⟩ :=
    constructed_of_completed completed
  -- The session took the same way until construction.
  rw [closed] at same
  cases same
  rw [collected] at same'
  cases same'
  rw [Progress.perform_construct, derived] at constructed
  cases constructed
  change i ∈ q.orchestrator.final.intervals
  rw [final]
  change i ∈ List.mergeSort (_ ++ _ ++ _) _
  simp [member]

/-- Once a session has its report, `Report.write` is all that is left. -/
theorem perform_executeWith
    (completed : p.perform (s.reportBy (.quiet platform) length) = (.ok report, q)) :
    p.perform (s.executeWith platform length) =
      match report.write q.scene.files ⟨s.inputs.storageDir⟩ s.inputs.suffix with
      | (.ok paths, files) =>
        (.ok ⟨report, s.inputs.suffix, paths⟩, { q with scene := { q.scene with files } })
      | (.error e, files) =>
        (.error (.refused e), { q with scene := { q.scene with files } }) := by
  rw [← executeBy_quiet, executeBy, Progress.perform_bind, completed]
  simp only [writeReport, Progress.perform_bind, Progress.perform_get]
  rcases report.write q.scene.files ⟨s.inputs.storageDir⟩ s.inputs.suffix with ⟨e | paths, files⟩
  · rfl
  · rfl

/-- When a completed run has its report where both files can be written, all its records reach the
disk, and its intervals with them, unless an instant of an interval lies before 1970. Then the
session fails and writes nothing, whatever the other observers returned. -/
theorem records_reach_disk {paths : ReportPaths}
    (completed : p.perform (s.reportBy (.quiet platform) length) = (.ok report, q))
    (named : (Sink.mk s.inputs.storageDir).reportPaths s.inputs.suffix = .ok paths)
    (intervals : q.scene.files.Takes paths.intervals)
    (results : q.scene.files.Takes paths.results) :
    (report.intervals.Dated → ∃ (document stream : Json.Value) (files : FileTree),
      p.perform (s.executeWith platform length) =
        (.ok ⟨report, s.inputs.suffix, paths⟩, { q with scene := { q.scene with files } }) ∧
      document.get? "results" = some (.array (report.results.map Record.encode)) ∧
      files.contentAt paths.results = .ok (Text.encodeUtf8 document.prettyText) ∧
      report.intervals.encode? = some stream ∧
      files.contentAt paths.intervals = .ok (Text.encodeUtf8 stream.prettyText)) ∧
    (¬report.intervals.Dated → p.perform (s.executeWith platform length) =
      (.error (.refused (.unwritable paths.intervals Timestamp.unwritableReason)), q)) := by
  rw [perform_executeWith completed]
  refine ⟨fun dated => ?_, fun undated => ?_⟩
  · obtain ⟨stream, files, encoded, written, read, read'⟩ :=
      Report.write_of_dated named intervals results dated
    rw [written]
    exact ⟨report.resultsDocument, stream, files, rfl, rfl, read', encoded, read⟩
  · rw [Report.write_of_not_dated named undated]

end Session

theorem Progress.eq_ok_of_toOption {ε α : Type} {x : Except Halt α × Progress ε} {a : α}
    (h : x.1.toOption = some a) : x = (.ok a, x.2) := by
  rcases x with ⟨_ | b, q⟩
  · cases h
  · cases h
    rfl

/-- A platform on which every call returns at once what `yields` says. -/
def Platform.prompt {ε : Type} (yields : Call → Registration → Yield) : Platform ε where
  join request scene :=
    (some (request.targets.map fun r => .returned (yields request.call r)), scene)
  awaitWindow _ scene := scene
  wallClock _ := .epoch

/-- One observer derives the intervals of `derived`, and another one judges. -/
def judgement (derived : List Interval) : Call → Registration → Yield
  | .construction .., ⟨"disks", _⟩ => { intervals := derived }
  | .evaluation _, ⟨"pods", _⟩ => { records := [.pass "no restarts"] }
  | _, _ => {}

def judgedRegistry : Registry where
  entries := [⟨"pods", "node"⟩, ⟨"disks", "storage"⟩]
  distinct := by decide +kernel
  named := by decide +kernel

def judgedSession : Session where
  windowLength := none
  inputs := { access := ⟨"", none, none, none, none, false⟩, storageDir := "/out" }

def judgedRun : Progress Unit :=
  .new "run" judgedRegistry ⟨.ofSecs 60, .ofSecs 60, .ofSecs 5⟩
    { origin := 0, inner := () }

/-- The driver of the run, on a platform where the observers behave as `judgement` says. -/
def judgedDriver (derived : List Interval) : Driver Unit := .quiet (.prompt (judgement derived))

def judgedClosed (derived : List Interval) : Progress Unit :=
  (judgedRun.perform (judgedSession.closeBy (judgedDriver derived) none)).2

def judgedCollected (derived : List Interval) : Progress Unit :=
  ((judgedClosed derived).perform
    (judgedSession.collectBy (judgedDriver derived) ⟨.epoch, .epoch⟩)).2

def judgedEnd (derived : List Interval) : Progress Unit :=
  (judgedRun.perform (judgedSession.reportBy (judgedDriver derived) none)).2

def judgedRecord : Record := (Record.pass "no restarts").attributedTo "pods" "node"

def judgedPaths : ReportPaths := ⟨"/out/e2e-intervals.json", "/out/observer-results.json"⟩

theorem judgedRun_completed (derived : List Interval)
    (returned : (judgedRun.perform
      (judgedSession.reportBy (judgedDriver derived) none)).1.toOption.isSome = true) :
    judgedRun.perform (judgedSession.reportBy (judgedDriver derived) none) =
      (.ok (judgedEnd derived).orchestrator.report, judgedEnd derived) := by
  obtain ⟨report, same⟩ := Option.isSome_iff_exists.1 returned
  have completed := Progress.eq_ok_of_toOption same
  obtain ⟨rfl, -⟩ := Session.constructed_of_completed completed
  exact completed

namespace Session

/-- The record of the observer that judges reaches the disk when nothing is derived. -/
theorem records_reach_disk_of_judgement :
    ∃ (document : Json.Value) (files : FileTree),
      (judgedRun.perform (judgedSession.executeWith (.prompt (judgement [])) none)).2.scene.files =
        files ∧
      document.get? "results" = some (.array [judgedRecord.encode]) ∧
      files.contentAt judgedPaths.results = .ok (Text.encodeUtf8 document.prettyText) := by
  have completed := judgedRun_completed [] (by decide +kernel)
  have alone :
      (judgedEnd []).orchestrator.final.intervals = [Window.interval ⟨.epoch, .epoch⟩] := by
    decide +kernel
  have dated : (judgedEnd []).orchestrator.report.intervals.Dated := by
    intro i member
    rw [show i = _ from List.mem_singleton.1 (alone ▸ member)]
    exact ⟨by decide, by decide⟩
  have results : (judgedEnd []).orchestrator.report.results = [judgedRecord] := by
    decide +kernel
  have named : (Sink.mk judgedSession.inputs.storageDir).reportPaths judgedSession.inputs.suffix =
      .ok judgedPaths := rfl
  obtain ⟨document, stream, files, executed, held, read, -⟩ :=
    (records_reach_disk completed named
      (by decide +kernel) (by decide +kernel)).1 dated
  refine ⟨document, files, ?_, ?_, read⟩
  · rw [executed]
  · rw [held, results]
    rfl

def earlyInterval : Interval := .opened ⟨-1⟩ "disk" "disks" "full"

/-- An interval of one observer keeps the record of the other one from the disk, as it begins before
1970. -/
theorem lost_record_beside_early_interval :
    ∃ report : Report,
      judgedRun.perform (judgedSession.reportBy (judgedDriver [earlyInterval]) none) =
        (.ok report, judgedEnd [earlyInterval]) ∧ report.results = [judgedRecord] ∧
      (judgedEnd [earlyInterval]).scene.files.Takes judgedPaths.intervals ∧
      (judgedEnd [earlyInterval]).scene.files.Takes judgedPaths.results ∧
      judgedRun.perform (judgedSession.executeWith (.prompt (judgement [earlyInterval])) none) =
        (.error (.refused (.unwritable judgedPaths.intervals Timestamp.unwritableReason)),
          judgedEnd [earlyInterval]) ∧
      (judgedEnd [earlyInterval]).scene.files.contentAt judgedPaths.results = .error .notFound := by
  have completed := judgedRun_completed [earlyInterval] (by decide +kernel)
  have closed : (judgedRun.perform
      (judgedSession.closeBy (judgedDriver [earlyInterval]) none)).1.toOption =
        some ⟨.epoch, .epoch⟩ := by
    decide +kernel
  have collected : ((judgedClosed [earlyInterval]).perform
      (judgedSession.collectBy (judgedDriver [earlyInterval]) ⟨.epoch, .epoch⟩)).1.toOption =
        some () := by
    decide +kernel
  -- The observer hands its interval over when the final intervals are constructed.
  let construction := (judgedCollected [earlyInterval]).perform
    (Conduct.phase (.prompt (judgement [earlyInterval]))
      (.construction (judgedCollected [earlyInterval]).orchestrator.raw .empty
        ⟨.epoch, .epoch⟩))
  have derived : (construction.1.toOption.map fun settlement =>
      (settlement.getD {}).intervals) = some [earlyInterval] := by
    decide +kernel
  obtain ⟨settlement, settled, intervals⟩ := Option.map_eq_some_iff.1 derived
  have undated : ¬(judgedEnd [earlyInterval]).orchestrator.report.intervals.Dated := by
    intro dated
    have early := dated earlyInterval (mem_report completed (Progress.eq_ok_of_toOption closed)
      (Progress.eq_ok_of_toOption collected) (Progress.eq_ok_of_toOption settled)
      (by simp [intervals]))
    exact absurd early.start (by decide)
  refine ⟨_, completed, by decide +kernel, by decide +kernel, by decide +kernel, ?_, rfl⟩
  have named : (Sink.mk judgedSession.inputs.storageDir).reportPaths judgedSession.inputs.suffix =
      .ok judgedPaths := rfl
  rw [perform_executeWith completed, Report.write_of_not_dated named undated]

end Session
end Vigil
