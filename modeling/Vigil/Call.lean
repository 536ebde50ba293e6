import Vigil.Cluster
import Vigil.Interval.Timeline
import Vigil.Metrics
import Vigil.Record
import Vigil.Registry
import Vigil.Resources
import Vigil.Window

/-!
# Calls of observers

In every phase each observer is called once, with what the phase gives it. A call returns a yield,
or it fails, panics, takes too long or is given up after a cancellation; every way but the first is
settled as a failing record in the name of the observer.
-/

namespace Vigil

/-- A call of one method of an observer, with the arguments that the observer is given. -/
inductive Call where
  /-- Begin to watch a cluster. -/
  | setup (access : ClusterAccess)
  /-- Hand over what was seen in a window; files may go to a directory. -/
  | collection (dir : String) (window : Window)
  /-- Derive intervals from those of all observers. -/
  | construction (starting : Timeline) (resources : Resources) (window : Window)
  /-- Judge the final intervals. -/
  | evaluation (final : Timeline)
  /-- Write files, whose names end in a suffix, to a directory. -/
  | storage (dir suffix : String) (final : Timeline) (resources : Resources)
  | cleanup

def Call.phase : Call → Phase
  | setup _ => .setup
  | collection .. => .collection
  | construction .. => .construction
  | evaluation _ => .evaluation
  | storage .. => .storage
  | cleanup => .cleanup

/-- What a call that succeeds hands over. Which part of it is kept depends on the phase: see
`Yield.keptBy`. -/
structure Yield where
  intervals : List Interval := []
  records : List Record := []
  deriving DecidableEq

instance : Inhabited Yield := ⟨{}⟩

/-- The part of the yield `y` that a phase has a use for: collection keeps all of it, construction
the intervals, evaluation the records, and the other phases nothing. -/
def Yield.keptBy (y : Yield) : Phase → Yield
  | .collection => y
  | .construction => { intervals := y.intervals }
  | .evaluation => { records := y.records }
  | _ => {}

/-- How a call came out for the run that has joined it: by itself, or because the join gave it
up. -/
inductive CallOutcome where
  | returned (yield : Yield)
  | failed (error : Error)
  /-- It panicked. There is no `message` if the payload of the panic was no text. -/
  | panicked (message : Option String)
  /-- It was stopped because it took longer than its phase may, which is the time `after`. -/
  | timedOut (after : Duration)
  /-- It was stopped because the grace period after a cancellation was over. -/
  | abandoned
  deriving DecidableEq

/-- How a call ends by itself, if nobody stops it before: it returns, fails or panics. -/
inductive Ending where
  | returned (yield : Yield)
  | failed (error : Error)
  /-- It panics. There is no `message` if the payload of the panic is no text. -/
  | panicked (message : Option String)
  deriving DecidableEq

/-- The `CallOutcome` of a call that ended by itself before its deadline. -/
def Ending.outcome : Ending → CallOutcome
  | returned yield => .returned yield
  | failed error => .failed error
  | panicked message => .panicked message

/-- A way for a call to miss its return. Metrics count failures by these kinds. -/
inductive FailureKind where
  | error
  | panic
  | timeout
  | cancelled
  deriving DecidableEq, Repr

def FailureKind.name : FailureKind → String
  | error => "error"
  | panic => "panic"
  | timeout => "timeout"
  | cancelled => "cancelled"

/-- What is wrong with a call in `phase` that did not return: the kind of its failure, and the text
of the record that tells of it. -/
def CallOutcome.failure? (phase : Phase) : CallOutcome → Option (FailureKind × String)
  | returned _ => none
  | failed e => some (.error, e.message)
  | panicked message => some (.panic, "panicked: " ++ message.getD "non-string panic payload")
  | timedOut after =>
    some (.timeout, "did not finish " ++ phase.label ++ " within " ++ after.secondsText ++ "s")
  | abandoned => some (.cancelled, phase.label ++ " abandoned after cancellation")

/-- The failing record of a call that did not return, made in the name of the observer `r` and of
its owner. -/
def failureRecord (r : Registration) (phase : Phase) (detail : String) : Record :=
  (Record.fail ("[" ++ r.owner ++ "] invariant test " ++ r.name ++ " " ++ phase.label)
    detail).attributedTo r.name r.owner

/-- What the calls of one phase add to a run once they are joined. -/
structure Settlement where
  intervals : List Interval := []
  /-- The records that were returned or made. -/
  records : List Record := []
  /-- The calls that did not return, as counts to be emitted. -/
  failures : List Metrics.Emission := []
  deriving DecidableEq

instance : Inhabited Settlement := ⟨{}⟩

namespace Settlement

/-- What the settlements `s` and `t` add one after the other. -/
def append (s t : Settlement) : Settlement :=
  ⟨s.intervals ++ t.intervals, s.records ++ t.records, s.failures ++ t.failures⟩

instance : Append Settlement := ⟨append⟩

/-- What one call adds: what it returned, as far as `phase` has a use for it, with its records
attributed to the observer `r`, or a failing record in the name of `r`. -/
def ofCall (phase : Phase) (r : Registration) (outcome : CallOutcome) : Settlement :=
  match outcome with
  | .returned yield =>
    { intervals := (yield.keptBy phase).intervals
      records := (yield.keptBy phase).records.map fun record => record.attributedTo r.name r.owner }
  | other =>
    match other.failure? phase with
    | none => {}
    | some (kind, detail) =>
      { records := [failureRecord r phase detail]
        failures := [Metrics.observerFailure r.name phase.label kind.name] }

/-- What the calls of a phase add: the settlements of `targets` with their `outcomes`, in the order
of the observers. -/
def ofCalls (phase : Phase) (targets : List Registration) (outcomes : List CallOutcome) :
    Settlement :=
  (targets.zip outcomes).foldr (fun e s => ofCall phase e.1 e.2 ++ s) {}

/-- What `ofCalls` adds of one `part` is what `ofCall` adds of it for each observer, in the order of
the observers. -/
theorem flatMap_ofCalls {α : Type} (part : Settlement → List α) (empty : part {} = [])
    (append : ∀ s t, part (s ++ t) = part s ++ part t) (phase : Phase)
    (targets : List Registration) (outcomes : List CallOutcome) :
    part (ofCalls phase targets outcomes) =
      (targets.zip outcomes).flatMap fun e => part (ofCall phase e.1 e.2) := by
  rw [ofCalls]
  induction targets.zip outcomes with
  | nil => exact empty
  | cons e rest ih => rw [List.foldr_cons, append, ih, List.flatMap_cons]

theorem records_ofCalls (phase : Phase) (targets : List Registration)
    (outcomes : List CallOutcome) :
    (ofCalls phase targets outcomes).records =
      (targets.zip outcomes).flatMap fun e => (ofCall phase e.1 e.2).records :=
  flatMap_ofCalls records rfl (fun _ _ => rfl) phase targets outcomes

theorem intervals_ofCalls (phase : Phase) (targets : List Registration)
    (outcomes : List CallOutcome) :
    (ofCalls phase targets outcomes).intervals =
      (targets.zip outcomes).flatMap fun e => (ofCall phase e.1 e.2).intervals :=
  flatMap_ofCalls intervals rfl (fun _ _ => rfl) phase targets outcomes

end Settlement
end Vigil
