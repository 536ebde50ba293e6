import Vigil.Call
import Vigil.Storage.Sink

/-!
# The cluster-info observer

This observer collects nothing. It keeps the access that setup gives it until cleanup, and the facts
about it for good, and it writes a file with these facts, whether a master node was updated, and how
many objects and intervals there are.
-/

namespace Vigil

/-- The name of the built-in observer, and of the directory in which its file lies. -/
def clusterInfoName : String := "cluster-info"

def clusterInfoOwner : String := "Test Framework"

/-- Whether the interval `i` says that a master node was updated, by its category and its
annotations. -/
def Interval.isMasterUpdate (i : Interval) : Bool :=
  i.category == nodeStateCategory && i.annotations.get? "role" == some "master"
    && i.annotations.get? "reason" == some "NodeUpdate"

def Timeline.masterUpdated (t : Timeline) : Bool := t.intervals.any Interval.isMasterUpdate

/-- What the built-in observer remembers of its cluster between calls. -/
structure ClusterInfo where
  /-- The access, until cleanup. -/
  access : Option ClusterAccess := none
  /-- The facts about the access, for good. -/
  facts : Option ClusterFacts := none
  cleaned : Bool := false
  deriving DecidableEq, Repr, Inhabited

namespace ClusterInfo

/-- Whether the observer still holds an access, and the secrets with it. -/
def holdsCredentials (c : ClusterInfo) : Bool := c.access.isSome

/-- Remembers `access` and the facts about it, in place of an earlier access. -/
def start (c : ClusterInfo) (access : ClusterAccess) : ClusterInfo :=
  { c with access := some access, facts := some access.facts }

/-- Forgets the access, the first time only: a second cleanup does nothing, whatever was remembered
since. -/
def cleanup (c : ClusterInfo) : ClusterInfo :=
  if c.cleaned then c else { c with access := none, cleaned := true }

/-- The content of the file of the observer: the `facts`, whether the `final` intervals tell of an
update of a master node, and how many objects of each kind and how many intervals there are. -/
def document (facts : ClusterFacts) (final : Timeline) (resources : Resources) : Json.Value :=
  .object
    [("api_url", .string facts.apiUrl),
     ("auth_mode", .string facts.authMode.name),
     ("insecure_skip_tls_verify", .bool facts.insecureSkipTlsVerify),
     ("master_node_updated", .string (if final.masterUpdated then "Y" else "N")),
     ("resource_counts", .object (resources.counts.map fun e => (e.1, .nat e.2))),
     ("interval_count", .nat final.size)]

/-- Writes the file of the observer below the directory `dir`. Without facts this is an error,
because setup has not run. -/
def store (c : ClusterInfo) (files : FileTree) (dir suffix : String) (final : Timeline)
    (resources : Resources) : Except Error Unit × FileTree :=
  match c.facts with
  | none =>
    (.error (.observerFailed
      "cluster access was never recorded: StartCollection did not run"), files)
  | some facts =>
    match (Sink.mk dir).artifactPath clusterInfoName ("cluster-data" ++ suffix ++ ".json") with
    | .error e => (.error e, files)
    | .ok path => writeValue files path (some (document facts final resources))

/-- Answers a call on the built-in observer `c`: how the call ends, what the observer remembers
then, and the files after it. -/
def answer (c : ClusterInfo) (files : FileTree) : Call → Ending × ClusterInfo × FileTree
  | .setup access => (.returned {}, c.start access, files)
  | .collection .. => (.returned {}, c, files)
  | .construction .. => (.returned {}, c, files)
  | .evaluation _ => (.returned {}, c, files)
  | .storage dir suffix final resources =>
    match c.store files dir suffix final resources with
    | (.ok (), files) => (.returned {}, c, files)
    | (.error e, files) => (.failed e, c, files)
  | .cleanup => (.returned {}, c.cleanup, files)

end ClusterInfo

def builtinNames : List String := [clusterInfoName]

def builtinEntries : List Registration := [⟨clusterInfoName, clusterInfoOwner⟩]

theorem nodup_builtinEntries : (builtinEntries.map Registration.name).Nodup := by
  decide +kernel

theorem named_builtinEntries : ∀ e ∈ builtinEntries, Text.isBlankText e.name = false := by
  decide +kernel

/-- The registry of the built-in observers that the settings `s` let take part. -/
def builtinRegistry (s : ObserverSettings) : Registry :=
  if s.isEnabled clusterInfoName then ⟨builtinEntries, nodup_builtinEntries, named_builtinEntries⟩
  else {}

end Vigil
