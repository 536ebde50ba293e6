import Vigil.Interval.Basic
import Vigil.Json.Writer
import Vigil.Storage.FileTree
import Vigil.Text.Utf8

/-!
# Sinks

A sink writes files below one directory. A file of an observer lies in a directory of the
observer's name, so files of different observers never meet; names that would leave the directory
are refused.
-/

namespace Vigil

/-- Accepts `name` only if it is the name of one file or directory: not empty, not a dot or two
dots, and without a separator. -/
def checkName (name : String) : Except Error Unit :=
  if name.isEmpty then .error (.invalidName name "must not be empty")
  else if name = "." ∨ name = ".." then
    .error (.invalidName name "must not be a relative directory reference")
  else if name.toList.any fun c => c == '/' || c == '\\' then
    .error (.invalidName name "must not contain path separators")
  else .ok ()

/-- A directory, its `root`, below which all files of a run are written. -/
structure Sink where
  root : String
  deriving DecidableEq, Repr

namespace Sink

/-- The path of the file `file` of the run itself, which lies right in the directory. -/
def filePath (s : Sink) (file : String) : Except Error String := do
  checkName file
  .ok (Path.join s.root file)

/-- The path of the file `file` of an observer, which lies in a directory of the name `observer`. -/
def artifactPath (s : Sink) (observer file : String) : Except Error String := do
  checkName observer
  checkName file
  .ok (Path.join (Path.join s.root observer) file)

end Sink

/-- Writes the octets `content` to `path`, with the error of the file system if it refuses. -/
def writeOctets (t : FileTree) (path : String) (content : List UInt8) :
    Except Error Unit × FileTree :=
  match t.put path content with
  | (.ok (), t) => (.ok (), t)
  | (.error e, t) => (.error (.file e), t)

/-- Writes a value over several lines to `path`. A value without a written form is an error and
touches no file. -/
def writeValue (t : FileTree) (path : String) (value : Option Json.Value) :
    Except Error Unit × FileTree :=
  match value with
  | none => (.error (.unwritable path Timestamp.unwritableReason), t)
  | some v => writeOctets t path (Text.encodeUtf8 v.prettyText)

end Vigil
