import Vigil.Orchestrator
import Vigil.Storage.Sink

/-!
# The files of a report

A report becomes two files: the final intervals, and the records with the state and the tally of the
run. The names of both are checked first; then the intervals are written, and the records last.
-/

namespace Vigil

/-- Where the two files of a report lie below the directory of a sink. -/
structure ReportPaths where
  intervals : String
  results : String
  deriving DecidableEq, Repr

/-- The paths of the files of a report whose names end in `suffix`. There are none if that makes a
name illegal. -/
def Sink.reportPaths (s : Sink) (suffix : String) : Except Error ReportPaths := do
  let intervals ← s.filePath ("e2e-intervals" ++ suffix ++ ".json")
  let results ← s.filePath ("observer-results" ++ suffix ++ ".json")
  .ok ⟨intervals, results⟩

namespace Report

/-- The content of the file of the records, which also states the end of the run and the counts. -/
def resultsDocument (r : Report) : Json.Value :=
  .object
    [("run_id", .string r.runId), ("state", .string r.state.name),
     ("cancelled", .bool r.cancelled), ("counts", r.counts.encode),
     ("results", .array (r.results.map Record.encode))]

def write (r : Report) (files : FileTree) (sink : Sink) (suffix : String) :
    Except Error ReportPaths × FileTree :=
  match sink.reportPaths suffix with
  | .error e => (.error e, files)
  | .ok paths =>
    match writeValue files paths.intervals r.intervals.encode? with
    | (.error e, files) => (.error e, files)
    | (.ok (), files) =>
      match writeValue files paths.results (some r.resultsDocument) with
      | (.error e, files) => (.error e, files)
      | (.ok (), files) => (.ok paths, files)

/-- The report `r` in one line, which is the line that the program prints. -/
def summaryLine (r : Report) : String :=
  toString r.counts.passed ++ " passed, " ++ toString r.counts.failed ++ " failed, "
    ++ toString r.counts.flaked ++ " flaked" ++ if r.cancelled then " (cancelled)" else ""

end Report
end Vigil
