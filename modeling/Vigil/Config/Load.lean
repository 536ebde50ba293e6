import Vigil.Config.Document
import Vigil.Config.Overrides
import Vigil.Storage.FileTree

/-!
# Loading a configuration

A configuration comes from a file; then the environment and last the caller replace values. It is
validated only once all of them had their say, so a bad value of the file can be mended.
-/

namespace Vigil.Config

/-- The configuration in what was read from `path`, as it stands there, before any other layer. -/
def ofContent (path : String) : Except FileError (List UInt8) → Except Error Config
  | .error .notFound => .error (.configNotFound path)
  | .error e => .error (.file e)
  | .ok content =>
    match Text.decodeUtf8 content with
    | none => .error (.file .notText)
    | some text => parse text

/-- The configuration in what was read from `path` after the environment and the caller (`amend`)
replaced values, if it is valid. -/
def load (path : String) (content : Except FileError (List UInt8)) (env : Environment)
    (amend : Config → Config) : Except Error Config := do
  let c := amend ((← ofContent path content).withEnvironment env)
  c.validate
  .ok c

end Vigil.Config
