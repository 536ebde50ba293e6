import Vigil.Phase

/-!
# Errors

An error says what went wrong as a cause; its text is made in one place.
-/

namespace Vigil

/-- A reason for which the file system refuses an operation, as far as the program tells reasons
apart. -/
inductive FileError where
  | notFound
  /-- A directory stands where a file is wanted. -/
  | isADirectory
  /-- A file stands where a directory is wanted. -/
  | notADirectory
  /-- Something stands already where a directory is to be made. -/
  | alreadyExists
  /-- A name is too long. -/
  | nameTooLong
  /-- A path holds the character zero. -/
  | zeroInPath
  /-- The content of a file is no UTF-8. -/
  | notText
  /-- Anything else, with its own text. -/
  | other (text : String)
  deriving DecidableEq, Repr

/-- The text with which the file system reports a refusal, as the system words it. -/
def FileError.message : FileError → String
  | notFound => "No such file or directory (os error 2)"
  | isADirectory => "Is a directory (os error 21)"
  | notADirectory => "Not a directory (os error 20)"
  | alreadyExists => "File exists (os error 17)"
  | nameTooLong => "File name too long (os error 36)"
  | zeroInPath => "file name contained an unexpected NUL byte"
  | notText => "stream did not contain valid UTF-8"
  | other text => text

/-- An error of any part of a run: of the configuration, of the registry, of an observer, of the
order of phases, or of the storage. -/
inductive Error where
  /-- The configuration file does not exist. -/
  | configNotFound (path : String)
  /-- The configuration file is not a document of the wanted shape. -/
  | configUnreadable (reason : String)
  /-- A field of the configuration has a value that it must not have. -/
  | configInvalid (field reason : String)
  | duplicateName (name : String)
  | emptyName
  /-- A `phase` was asked for in a `state` that it does not follow. -/
  | outOfOrder (phase : Phase) (state : State)
  | observerFailed (text : String)
  /-- An observer could not reach the cluster. -/
  | clusterFailed (text : String)
  /-- An observer stopped because it was cancelled. -/
  | observerCancelled
  /-- A file or an observer may not have this name. -/
  | invalidName (name reason : String)
  /-- A value has no written form. -/
  | unwritable (path reason : String)
  | file (cause : FileError)
  deriving DecidableEq, Repr

/-- The text of an error, as it stands in records, on the error stream and in answers. -/
def Error.message : Error → String
  | configNotFound path => "config error: config file not found: " ++ path
  | configUnreadable reason => "config error: failed to parse config: " ++ reason
  | configInvalid field reason =>
    "config error: invalid config value for '" ++ field ++ "': " ++ reason
  | duplicateName name => "registry error: observer already registered: " ++ name
  | emptyName => "registry error: observer name must not be empty"
  | outOfOrder phase state =>
    "lifecycle error: cannot run " ++ phase.label ++ " while orchestrator is " ++ state.label
  | observerFailed text => "observer error: " ++ text
  | clusterFailed text => "observer error: cluster access failed: " ++ text
  | observerCancelled => "observer error: cancelled"
  | invalidName name reason =>
    "storage error: invalid artifact name '" ++ name ++ "': " ++ reason
  | unwritable path reason => "storage error: failed to serialize " ++ path ++ ": " ++ reason
  | file cause => "io error: " ++ cause.message

end Vigil
