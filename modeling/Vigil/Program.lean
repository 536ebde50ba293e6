import Vigil.CommandLine
import Vigil.Config.Load
import Vigil.Session

/-!
# The program

The program reads its arguments and its configuration, and then either tells that the configuration
is valid or executes a session. What it prints and its exit status follow from how far it came.
-/

namespace Vigil.Program

/-- How the program ends: its status, what it prints, and what it says on the error stream. -/
structure Exit where
  code : Nat
  output : List String := []
  complaint : String := ""
  deriving DecidableEq, Repr, Inhabited

def versionLine : String := "watchpost-runner 0.1.0"

def helpLines : List String :=
  ["Watchpost invariant-test runner",
   "",
   "Usage: watchpost-runner [OPTIONS]",
   "",
   "Options:",
   "  -c, --config <CONFIG>                Path to watchpost.toml configuration file",
   "      --log-level <LOG_LEVEL>          Override log level",
   "      --log-format <LOG_FORMAT>        Override log format",
   "      --storage-dir <STORAGE_DIR>      Override the artifact directory",
   "      --workload-secs <WORKLOAD_SECS>  Override the observation window length in seconds",
   "      --validate                       Validate configuration file and exit",
   "  -h, --help                           Print help",
   "  -V, --version                        Print version"]

/-- The end of a program whose arguments do not lead to a run, for the reason `stop`. -/
def exitOfUsage (stop : UsageStop) : Exit :=
  match stop with
  | .help => ⟨stop.exitCode, helpLines, ""⟩
  | .version => ⟨stop.exitCode, [versionLine], ""⟩
  | _ => ⟨stop.exitCode, [], "error: invalid arguments"⟩

/-- The end of a program that returns the error `e`. -/
def exitOfError (e : RunnerError) : Exit := ⟨1, [], "Error: " ++ e.message⟩

/-- The end of a program that executed a session. The status is zero only for a written report
without a failure. -/
def exitOfSession : Except Halt Summary → Exit
  | .ok summary =>
    ⟨if summary.isFailure then 1 else 0,
     [summary.report.summaryLine, "results: " ++ summary.paths.results], ""⟩
  | .error (.refused e) => exitOfError (.run e)
  | .error .overflow => ⟨101, [], instantOverflowText⟩

/-- Reads the configuration that the arguments in `commandLine` ask for, given what reading its file
came to: the runner to execute, or how the program ends without a session. -/
def prepare (commandLine : CommandLine) (content : Except FileError (List UInt8))
    (env : Environment) : Except Exit Runner :=
  match Config.load commandLine.configPath content env commandLine.amend with
  | .error e => .error (exitOfError (.notLoaded e))
  | .ok config =>
    if commandLine.validate then
      .error ⟨0, ["configuration is valid: " ++ commandLine.configPath], ""⟩
    else
      match LogFormat.ofName config.general.logFormat with
      | .error e => .error (exitOfError e)
      | .ok _ =>
        match Runner.ofConfig config with
        | .error e => .error (exitOfError e)
        | .ok runner => .ok runner

end Vigil.Program
