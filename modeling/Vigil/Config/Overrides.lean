import Vigil.Config.Basic
import Vigil.Text.Utf8

/-!
# Configuration from the environment

Every field has a variable of its own, named for its section and field, that replaces its value.
A variable that is no text, or that does not spell a value of the field, is passed over.
-/

namespace Vigil

/-- The variables that a program is started with, and their octets; of two with one name the first
counts. -/
abbrev Environment := List (String × List UInt8)

/-- The text of the variable `name`, if its octets are a text. -/
def Environment.text? (env : Environment) (name : String) : Option String :=
  (env.find? fun e => e.1 == name).bind fun e => Text.decodeUtf8 e.2

namespace Text

/-- The natural number of 64 bits that `s` spells in decimal digits, perhaps with a plus sign before
them. -/
def word? (s : String) : Option Nat :=
  let digits :=
    match s.toList with
    | '+' :: rest => rest
    | cs => cs
  if digits.isEmpty ∨ !digits.all Char.isDigit then none
  else
    let n := digits.foldl (fun n c => n * 10 + (c.toNat - 48)) 0
    if n < 18446744073709551616 then some n else none

def truth? (s : String) : Option Bool :=
  if s = "true" then some true else if s = "false" then some false else none

/-- The texts between the commas of `s`, without the blanks around them and without those that are
blank. -/
def commaList (s : String) : List String :=
  ((s.toList.splitOn ',').map fun piece => String.ofList (trimChars piece)).filter (· != "")

end Text

namespace Config

/-- A variable of the environment with what its text does to a configuration. -/
structure Override where
  name : String
  /-- The configuration once the text has replaced a value. -/
  apply : String → Config → Config

/-- The variable `name` for a field that takes any text. -/
def Override.text (name : String) (set : Config → String → Config) : Override :=
  ⟨name, fun s c => set c s⟩

/-- The variable `name` for a field that takes only the texts that `read?` reads; others leave the
configuration alone. -/
def Override.reading {α : Type} (name : String) (read? : String → Option α)
    (set : Config → α → Config) : Override :=
  ⟨name, fun s c =>
    match read? s with
    | some a => set c a
    | none => c⟩

/-- The variables of all fields, in the order in which they have their say. -/
def overrides : List Override :=
  [.text "WATCHPOST_GENERAL_LOG_LEVEL" (fun c a => { c with general.logLevel := a }),
   .text "WATCHPOST_GENERAL_LOG_FORMAT" (fun c a => { c with general.logFormat := a }),
   .text "WATCHPOST_GENERAL_STORAGE_DIR" (fun c a => { c with general.storageDir := a }),
   .reading "WATCHPOST_LIFECYCLE_PHASE_TIMEOUT_SECS" Text.word?
     (fun c a => { c with lifecycle.phaseTimeoutSecs := a }),
   .reading "WATCHPOST_LIFECYCLE_CLEANUP_TIMEOUT_SECS" Text.word?
     (fun c a => { c with lifecycle.cleanupTimeoutSecs := a }),
   .reading "WATCHPOST_LIFECYCLE_CANCEL_GRACE_SECS" Text.word?
     (fun c a => { c with lifecycle.cancelGraceSecs := a }),
   .reading "WATCHPOST_LIFECYCLE_WORKLOAD_SECS" Text.word?
     (fun c a => { c with lifecycle.workloadSecs := a }),
   .text "WATCHPOST_CLUSTER_HOST" (fun c a => { c with cluster.host := a }),
   .text "WATCHPOST_CLUSTER_BEARER_TOKEN" (fun c a => { c with cluster.bearerToken := a }),
   .text "WATCHPOST_CLUSTER_CERTIFICATE_AUTHORITY"
     (fun c a => { c with cluster.certificateAuthority := a }),
   .text "WATCHPOST_CLUSTER_CLIENT_CERTIFICATE"
     (fun c a => { c with cluster.clientCertificate := a }),
   .text "WATCHPOST_CLUSTER_CLIENT_KEY" (fun c a => { c with cluster.clientKey := a }),
   .reading "WATCHPOST_CLUSTER_INSECURE_SKIP_TLS_VERIFY" Text.truth?
     (fun c a => { c with cluster.insecureSkipTlsVerify := a }),
   .reading "WATCHPOST_OBSERVERS_DISABLED" (fun s => some (Text.commaList s))
     (fun c a => { c with observers.disabled := a })]

/-- The configuration `c` once the variables that are set in `env` have replaced values, in the
order of `overrides`. -/
def withEnvironment (c : Config) (env : Environment) : Config :=
  overrides.foldl
    (fun c o =>
      match env.text? o.name with
      | some s => o.apply s c
      | none => c)
    c

end Config
end Vigil
