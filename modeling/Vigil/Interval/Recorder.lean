import Vigil.Error
import Vigil.Interval.Timeline

/-!
# The recorder

Background work hands over intervals through a recorder, a queue that many may add to and one side
empties. Once it is closed nothing is added any more; what was added before can still be taken.
-/

namespace Vigil

/-- The intervals that were recorded and wait to be taken by the run, and whether any may still be
added. -/
structure Recorder where
  /-- The intervals that wait, the oldest first. -/
  queue : List Interval := []
  /-- Whether the recorder takes no more intervals. -/
  closed : Bool := false
  deriving DecidableEq

namespace Recorder

instance : Inhabited Recorder := ⟨{}⟩

/-- Adds the interval `i` behind all others, unless the recorder is closed. -/
def record (r : Recorder) (i : Interval) : Except Error Unit × Recorder :=
  if r.closed then
    (.error (.observerFailed ("interval recorder closed, dropped interval from " ++ i.source)), r)
  else (.ok (), { r with queue := r.queue ++ [i] })

def take (r : Recorder) : Option Interval × Recorder :=
  match r.queue with
  | [] => (none, r)
  | i :: rest => (some i, { r with queue := rest })

/-- Takes intervals one by one until none waits, at most `n` of them. -/
def takeUpTo : Nat → Recorder → List Interval × Recorder
  | 0, r => ([], r)
  | n + 1, r =>
    match r.take with
    | (none, r) => ([], r)
    | (some i, r) =>
      let (rest, r) := takeUpTo n r
      (i :: rest, r)

/-- Takes all intervals that wait, as a timeline in the order in which they were recorded. -/
def drain (r : Recorder) : Timeline × Recorder :=
  let (taken, r) := takeUpTo r.queue.length r
  (⟨taken⟩, r)

/-- Lets no more intervals in. Those that wait can still be taken by `drain`. -/
def close (r : Recorder) : Recorder := { r with closed := true }

/-- Gives up the side that takes: nothing can be added or taken any more. -/
def abandon (_ : Recorder) : Recorder := { queue := [], closed := true }

/-- Taking one by one, as often as there are intervals that wait, takes exactly these. -/
theorem takeUpTo_length (r : Recorder) :
    takeUpTo r.queue.length r = (r.queue, { r with queue := [] }) := by
  obtain ⟨q, c⟩ := r
  induction q with
  | nil => rfl
  | cons i rest ih => simp only [List.length_cons, takeUpTo, take, ih]

/-- Draining returns the whole `queue` and leaves it empty; a recorder that is open stays open. -/
theorem drain_eq (r : Recorder) : r.drain = (⟨r.queue⟩, { r with queue := [] }) := by
  simp only [drain, takeUpTo_length]

end Recorder
end Vigil
