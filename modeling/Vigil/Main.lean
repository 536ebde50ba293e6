import Std.Async.Signal
import Std.Time
import Vigil.Live
import Vigil.Program
import Vigil.RunId

/-!
# The command line

Reads the arguments, the environment and the files, waits while the observation window is open, and
carries out what the library decides: the lines to print, the files to write and the exit status.
-/

namespace Vigil.CommandLine

def readEnvironment : IO Environment := do
  let found ← Config.overrides.mapM fun o => do
    pure ((← IO.getEnv o.name).map fun s => (o.name, Text.encodeUtf8 s))
  pure (found.filterMap id)

/-- The refusal that an error of the system stands for when a file is read. -/
def refusal : IO.Error → FileError
  | .noFileOrDirectory .. => .notFound
  | .inappropriateType .. => .isADirectory
  | e => .other (toString e)

/-- Reads the octets of the file at `path`, or why the system refused that. -/
def readContent (path : String) : IO (Except FileError (List UInt8)) := do
  try
    let content ← IO.FS.readBinFile path
    pure (.ok content.toList)
  catch e => pure (.error (refusal e))

def now : IO Timestamp := do
  pure ⟨(← Std.Time.Timestamp.now).toNanosecondsSinceUnixEpoch.val⟩

/-- Waits until the span `length` is over or, without one, until a signal asks to end. -/
def awaitWindow (length : Option Duration) : IO Unit := do
  let terminate ← Std.Async.Signal.Waiter.mk .sigterm false
  let interrupt ← Std.Async.Signal.Waiter.mk .sigint false
  let first ← terminate.wait
  let second ← interrupt.wait
  let signals := [← BaseIO.mapTask (fun _ => pure ()) first,
    ← BaseIO.mapTask (fun _ => pure ()) second]
  let timers ← length.toList.mapM fun d => do
    BaseIO.mapTask (fun _ => pure ()) (← IO.asTask (IO.sleep (min d.millisUp 4294967295).toUInt32))
  IO.waitAny (signals ++ timers) (by simp [signals])
  terminate.stop
  interrupt.stop

/-- The places on the way from the root to `place`, itself included. -/
def onTheWay (place : Place) : List Place :=
  (List.range (place.length + 1)).map fun n => place.take n

/-- What stands at the places on the way of `path`, as far as they exist on the host. -/
def survey (path : String) : IO FileTree := do
  let current ← IO.currentDir
  let home := (current.toString.splitOn "/").filter (· != "")
  let target := ((current / path).normalize.toString.splitOn "/").filter (· != "")
  let mut nodes : List (Place × Node) := []
  for place in onTheWay home ++ onTheWay target do
    let there := current / ("/" ++ String.intercalate "/" place)
    if ← there.isDir then nodes := (place, .directory) :: nodes
    else if ← there.pathExists then nodes := (place, .file []) :: nodes
  pure { nodes, workingDirectory := home }

/-- Writes what a run has added to the files: all that is in `after` and was not in `before`. -/
def writeOut (before after : FileTree) : IO Unit := do
  for (place, node) in after.nodes do
    if before.get? place = some node then continue
    let path := "/" ++ String.intercalate "/" place
    match node with
    | .directory => IO.FS.createDirAll path
    | .file content => IO.FS.writeBinFile path ⟨content.toArray⟩

def report (exit : Program.Exit) : IO UInt32 := do
  for line in exit.output do IO.println line
  if exit.complaint ≠ "" then IO.eprintln exit.complaint
  pure exit.code.toUInt32

/-- Executes a session of `runner` on this host and returns the exit status. -/
def executeLive (runner : Runner) : IO UInt32 := do
  let origin ← IO.monoNanosNow
  let opened ← now
  let suffix := ((⟨opened.secs, opened.subsec⟩ : Calendar.Reading).suffix?).getD ""
  let runId := RunId.ofOctets (← IO.getRandomBytes 16).toList
  awaitWindow (Runner.windowLength runner.config.lifecycle.workloadSecs)
  let before ← survey runner.config.general.storageDir
  let (summary, after) := Live.execute runner runId suffix before origin opened (← now)
  try
    writeOut before after
    report (Program.exitOfSession summary)
  catch e => report (Program.exitOfError (.run (.file (.other (toString e)))))

/-- Does what `arguments` ask for and returns the exit status. -/
def serve (arguments : List String) : IO UInt32 := do
  match parse (arguments.map Text.encodeUtf8) with
  | .error stop => report (Program.exitOfUsage stop)
  | .ok commandLine =>
    let content ← readContent commandLine.configPath
    match Program.prepare commandLine content (← readEnvironment) with
    | .error exit => report exit
    | .ok runner => executeLive runner

end Vigil.CommandLine

def main (arguments : List String) : IO UInt32 := Vigil.CommandLine.serve arguments
