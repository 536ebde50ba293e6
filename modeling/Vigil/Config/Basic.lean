import Vigil.Error
import Vigil.Json.Value
import Vigil.Text.Blank
import Vigil.Time.Duration

/-!
# Configuration

A configuration has four sections, and every field has a default. A configuration is valid when its
log settings are known words, its two limits are not zero, and its directory and host are not blank.
-/

namespace Vigil

/-- Settings of the program as a whole: the section `general`. -/
structure GeneralSettings where
  /-- How much is logged, one of `Config.logLevels`. -/
  logLevel : String := "info"
  /-- How log lines look, one of `Config.logFormats`. -/
  logFormat : String := "json"
  /-- The directory that the files of a run go to. -/
  storageDir : String := "/tmp/watchpost"
  deriving DecidableEq, Repr, Inhabited

/-- Limits on the phases of a run, in seconds: the section `lifecycle`. -/
structure LifecycleSettings where
  /-- How long a phase may take. -/
  phaseTimeoutSecs : Nat := 600
  /-- How long cleanup may take. -/
  cleanupTimeoutSecs : Nat := 120
  /-- How long calls may still take after a cancellation. -/
  cancelGraceSecs : Nat := 10
  /-- How long the observation window stays open; zero leaves it open until a signal. -/
  workloadSecs : Nat := 0
  deriving DecidableEq, Repr, Inhabited

/-- Settings of the access to the cluster: the section `cluster`. An empty text stands for
nothing. -/
structure ClusterSettings where
  host : String := "https://127.0.0.1:6443"
  /-- The token that is shown to the server. -/
  bearerToken : String := ""
  clientCertificate : String := ""
  clientKey : String := ""
  /-- The certificates of the authorities that are trusted. -/
  certificateAuthority : String := ""
  /-- Whether the certificate of the server goes unchecked. -/
  insecureSkipTlsVerify : Bool := false
  deriving DecidableEq, Repr, Inhabited

/-- Settings of the built-in observers: the section `observers`. -/
structure ObserverSettings where
  /-- The names of the observers that take no part. -/
  disabled : List String := []
  deriving DecidableEq, Repr, Inhabited

/-- Whether the observer of that `name` takes part: it does unless it is disabled. -/
def ObserverSettings.isEnabled (s : ObserverSettings) (name : String) : Bool :=
  !s.disabled.contains name

/-- The settings of a run, one section for each kind of them. -/
structure Config where
  general : GeneralSettings := {}
  lifecycle : LifecycleSettings := {}
  cluster : ClusterSettings := {}
  observers : ObserverSettings := {}
  deriving DecidableEq, Repr, Inhabited

/-- The time limits of a run, which `LifecycleSettings.limits` makes of whole seconds. -/
structure Limits where
  phaseTimeout : Duration
  cleanupTimeout : Duration
  cancelGrace : Duration
  deriving DecidableEq, Repr

/-- The time limits that the settings `s` give in whole seconds. -/
def LifecycleSettings.limits (s : LifecycleSettings) : Limits where
  phaseTimeout := .ofSecs s.phaseTimeoutSecs
  cleanupTimeout := .ofSecs s.cleanupTimeoutSecs
  cancelGrace := .ofSecs s.cancelGraceSecs

def Limits.standard : Limits := ({} : LifecycleSettings).limits

namespace Config

/-- The words for how much is logged. -/
def logLevels : List String := ["trace", "debug", "info", "warn", "error"]

/-- The words for how log lines look. -/
def logFormats : List String := ["json", "pretty"]

/-- The reason against a word that is none of `words`. -/
def oneOf (words : List String) : String := "must be one of: " ++ String.intercalate ", " words

/-- Refuses `field` for `reason` unless it holds a `good` value. -/
def require (good : Bool) (field reason : String) : Except Error Unit :=
  if good then .ok () else .error (.configInvalid field reason)

/-- Accepts exactly the valid configurations; of several bad fields the first one in this order is
named. -/
def validate (c : Config) : Except Error Unit := do
  require (logLevels.contains c.general.logLevel) "general.log_level" (oneOf logLevels)
  require (logFormats.contains c.general.logFormat) "general.log_format" (oneOf logFormats)
  require (!Text.isBlankText c.general.storageDir) "general.storage_dir"
    "storage directory must not be empty"
  require (c.lifecycle.phaseTimeoutSecs != 0) "lifecycle.phase_timeout_secs"
    "timeout must be greater than zero"
  require (c.lifecycle.cleanupTimeoutSecs != 0) "lifecycle.cleanup_timeout_secs"
    "timeout must be greater than zero"
  require (!Text.isBlankText c.cluster.host) "cluster.host" "cluster host must not be empty"

/-- The written form of the configuration `c`. -/
def encode (c : Config) : Json.Value :=
  .object
    [("general", .object
      [("log_level", .string c.general.logLevel),
       ("log_format", .string c.general.logFormat),
       ("storage_dir", .string c.general.storageDir)]),
     ("lifecycle", .object
      [("phase_timeout_secs", .nat c.lifecycle.phaseTimeoutSecs),
       ("cleanup_timeout_secs", .nat c.lifecycle.cleanupTimeoutSecs),
       ("cancel_grace_secs", .nat c.lifecycle.cancelGraceSecs),
       ("workload_secs", .nat c.lifecycle.workloadSecs)]),
     ("cluster", .object
      [("host", .string c.cluster.host),
       ("bearer_token", .string c.cluster.bearerToken),
       ("client_certificate", .string c.cluster.clientCertificate),
       ("client_key", .string c.cluster.clientKey),
       ("certificate_authority", .string c.cluster.certificateAuthority),
       ("insecure_skip_tls_verify", .bool c.cluster.insecureSkipTlsVerify)]),
     ("observers", .object [("disabled", .array (c.observers.disabled.map .string))])]

end Config
end Vigil
