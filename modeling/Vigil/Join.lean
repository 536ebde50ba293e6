import Vigil.Call

/-!
# Joining the calls of a phase

The calls of a phase run side by side and are awaited in their order. When the limit of the phase
has passed, the calls that have not finished are stopped; after a cancellation the limit moves
forward to the end of a grace period. A join is over once every call has an outcome and those that
were asked to stop have come to a stop.

Time is counted in whole milliseconds since the start of the run. An instant is what the monotonic
clock of the host reads then, and it has room for seconds of 63 bits. What that clock reads at the
start, the `origin`, is up to the host, and so it is an argument of everything that adds to an
instant.

The module introduces:

* `later?`, the instant some time after another one, if there is room for it;
* `Join.turn`, one turn of the loop over the calls: it depends on the clock, on whether the run is
  cancelled and on whether the first awaited call has ended, and it says which call is to be
  stopped;
* `Join.poll`, the turns that are taken until the loop has to wait;
* `Join.outcomes?`, what the join returns and when.
-/

namespace Vigil

/-- The nanoseconds for which the monotonic clock of a host has room: its seconds are those of a
signed number of 64 bits. -/
def instantRoom : Nat := Nat.pow 2 63 * 1000000000

def instantOverflowText : String := "overflow when adding duration to instant"

/-- The time `d` after `now`, in milliseconds since the start and rounded up. There is no result
when the instant has no room, on a host whose clock read `origin` nanoseconds at the start. -/
def later? (origin now : Nat) (d : Duration) : Option Nat :=
  if origin + (d.nanos + now * 1000000) < instantRoom then some (now + d.millisUp) else none

/-- The limits of the join of one phase, which are those of the run. -/
structure JoinLimits where
  /-- How long the calls may take. -/
  timeout : Duration
  /-- How long they may still take after a cancellation. -/
  grace : Duration
  deriving DecidableEq, Repr

/-- The calls of a phase while a run awaits them, one after the other in the order of the
observers. -/
structure Join where
  limits : JoinLimits
  /-- When the calls that have not finished are stopped. -/
  deadline : Nat
  /-- Whether a cancellation has moved the deadline. -/
  cancelSeen : Bool
  /-- Whether the deadline has passed for an earlier call. -/
  expired : Bool := false
  /-- The outcomes of the first calls. -/
  settled : List CallOutcome := []
  /-- The calls that are still awaited, in their order. -/
  waiting : List Nat
  aborted : List Nat := []
  deriving DecidableEq

namespace Join

/-- Begins to await `calls` at `now`, within `limits`. If the run is `cancelled` by then the
deadline moves at once. There is no result when a deadline has no room. -/
def start? (origin : Nat) (limits : JoinLimits) (now : Nat) (cancelled : Bool) (calls : List Nat) :
    Option Join := do
  let deadline ← later? origin now limits.timeout
  if cancelled then
    some { limits, deadline := min deadline (← later? origin now limits.grace), cancelSeen := true,
           waiting := calls }
  else some { limits, deadline, cancelSeen := false, waiting := calls }

/-- The outcome of a call that the join `j` stops: abandoned if `j` has seen a cancellation, and
timed out otherwise. -/
def stopped (j : Join) : CallOutcome :=
  if j.cancelSeen then .abandoned else .timedOut j.limits.timeout

/-- Takes over that the first awaited call ended in `e`; the calls in `rest` are awaited next. -/
def takeOver (e : Ending) (rest : List Nat) (j : Join) : Join :=
  { j with settled := j.settled ++ [e.outcome], waiting := rest }

/-- Gives the first awaited call `call` up, which gets the outcome `stopped` and is asked to
stop. -/
def giveUp (call : Nat) (rest : List Nat) (j : Join) : Join :=
  { j with
    expired := true
    settled := j.settled ++ [j.stopped]
    waiting := rest
    aborted := j.aborted ++ [call] }

/-- Moves the deadline forward at the first sight of a cancellation: to the end of the grace period
that begins `now`, if that comes before. -/
def seeCancel? (origin now : Nat) (j : Join) : Option Join := do
  some { j with
    deadline := min j.deadline (← later? origin now j.limits.grace)
    cancelSeen := true }

/-- One turn of the loop over the calls, at `now`. It takes over how the first awaited call ended,
if `ending?` tells that, gives that call up after the deadline, or heeds that the run is
`cancelled`. The second part of the result is a call to stop; there is no result when an instant has
no room. -/
def turn (origin now : Nat) (cancelled : Bool) (ending? : Nat → Option Ending) (j : Join) :
    Option (Join × Option Nat) :=
  match j.waiting with
  | [] => some (j, none)
  | call :: rest =>
    match ending? call with
    -- A call that has finished counts even when the deadline is over.
    | some e => some (j.takeOver e rest, none)
    | none =>
      if j.expired || decide (j.deadline ≤ now) then some (j.giveUp call rest, some call)
      else if cancelled && !j.cancelSeen then (j.seeCancel? origin now).map fun j => (j, none)
      else some (j, none)

/-- A number of turns of the loop one after the other, all of them at `now`, with the calls that are
to be stopped. -/
def turns (origin now : Nat) (cancelled : Bool) (ending? : Nat → Option Ending) :
    Nat → Join → Option (Join × List Nat)
  | 0, j => some (j, [])
  | n + 1, j => do
    let (j, stop) ← j.turn origin now cancelled ending?
    let (j, stops) ← turns origin now cancelled ending? n j
    some (j, stop.toList ++ stops)

/-- The turns that the loop takes until it has to wait, which are one for each call and one for a
cancellation at most. -/
def poll (origin now : Nat) (cancelled : Bool) (ending? : Nat → Option Ending) (j : Join) :
    Option (Join × List Nat) :=
  j.turns origin now cancelled ending? (j.waiting.length + 1)

/-- Whether every call of the join `j` has an outcome. -/
def isDone (j : Join) : Bool := j.waiting.isEmpty

/-- The outcomes of all calls, once every call has one and those that were asked to stop are over,
as `isOver` tells. -/
def outcomes? (isOver : Nat → Bool) (j : Join) : Option (List CallOutcome) :=
  if j.isDone && j.aborted.all isOver then some j.settled else none

end Join
end Vigil
