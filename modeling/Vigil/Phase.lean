/-!
# Phases and states of a run

A run takes its observers through six phases in a fixed order. Between two phases it is in a state
that says which phase settled last; the first five phases each require the state before them, and
cleanup may follow any state.
-/

namespace Vigil

/-- One of the six phases of a run, in the order in which `Phase.all` lists them. Every observer is
called once in each of them. -/
inductive Phase where
  /-- Observers begin to watch. -/
  | setup
  /-- Observers hand over what they saw. -/
  | collection
  /-- Observers derive intervals from what all of them saw. -/
  | construction
  /-- Observers judge the final intervals. -/
  | evaluation
  /-- Observers write files of their own. -/
  | storage
  /-- Observers release what they hold. -/
  | cleanup
  deriving DecidableEq, Repr, Inhabited

/-- What a run has settled so far. The state `pending` is that of a new run, and each phase takes
the run to its `Phase.settled`. -/
inductive State where
  | pending
  | collecting
  | collected
  | constructed
  | evaluated
  | persisted
  | cleanedUp
  deriving DecidableEq, Repr, Inhabited

namespace Phase

def all : List Phase := [setup, collection, construction, evaluation, storage, cleanup]

/-- The phases before cleanup, in their order. Only these require a state, and only these heed a
cancellation. -/
def working : List Phase := [setup, collection, construction, evaluation, storage]

/-- The name of a phase in error messages, in the names of failing records and in the labels of
metrics. -/
def label : Phase → String
  | setup => "setup"
  | collection => "collection"
  | construction => "interval construction"
  | evaluation => "test evaluation"
  | storage => "storage"
  | cleanup => "cleanup"

def name : Phase → String
  | setup => "start_collection"
  | collection => "collect_data"
  | construction => "construct_intervals"
  | evaluation => "evaluate_tests"
  | storage => "write_storage"
  | cleanup => "cleanup"

/-- The state that a phase requires of a run, if it requires one. Only `cleanup` may begin in any
state. -/
def required? : Phase → Option State
  | setup => some .pending
  | collection => some .collecting
  | construction => some .collected
  | evaluation => some .constructed
  | storage => some .evaluated
  | cleanup => none

/-- The state of a run once the phase has settled, whether its calls were made or skipped. -/
def settled : Phase → State
  | setup => .collecting
  | collection => .collected
  | construction => .constructed
  | evaluation => .evaluated
  | storage => .persisted
  | cleanup => .cleanedUp

end Phase

namespace State

def all : List State :=
  [pending, collecting, collected, constructed, evaluated, persisted, cleanedUp]

def label : State → String
  | pending => "pending"
  | collecting => "collecting"
  | collected => "data collected"
  | constructed => "intervals constructed"
  | evaluated => "tests evaluated"
  | persisted => "persisted"
  | cleanedUp => "cleaned up"

def name : State → String
  | pending => "pending"
  | collecting => "collecting"
  | collected => "data_collected"
  | constructed => "intervals_constructed"
  | evaluated => "tests_evaluated"
  | persisted => "persisted"
  | cleanedUp => "cleaned_up"

def debugName : State → String
  | pending => "Pending"
  | collecting => "Collecting"
  | collected => "DataCollected"
  | constructed => "IntervalsConstructed"
  | evaluated => "TestsEvaluated"
  | persisted => "Persisted"
  | cleanedUp => "CleanedUp"

end State
end Vigil
