import Vigil.Program
import Vigil.Rehearsal.Session

/-!
# Rehearsing the program

The whole program with its built-in observers, on a tree of files.
-/

namespace Vigil.Rehearsal

/-- Runs the program with `arguments` on the files that there are; with `signal` one signal arrives
while the window is open. -/
def rehearseProgram (arguments : List (List UInt8)) (env : Environment) (files : FileTree)
    (signal : Bool) (runId suffix : String) : Program.Exit × FileTree :=
  match CommandLine.parse arguments with
  | .error stop => (Program.exitOfUsage stop, files)
  | .ok commandLine =>
    match Program.prepare commandLine (files.contentAt commandLine.configPath) env with
    | .error exit => (exit, files)
    | .ok runner =>
      let plan : SessionPlan :=
        { config := runner.config, files, runId, suffix
          errands := if signal then [(1, .escalate)] else [] }
      match plan.play with
      | .error e => (Program.exitOfError e, files)
      | .ok account => (Program.exitOfSession account.summary, account.progress.scene.files)

end Vigil.Rehearsal
