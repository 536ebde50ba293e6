import Vigil.Call
import Vigil.Guard

/-!
# Trying a guard

Several callers come to one guard, each at its time and with work of some length; a caller may give
up after a while. The trial takes what happens one after the other, the earliest first.
-/

namespace Vigil.Rehearsal

/-- A caller of a guard: when it comes, how long its work takes and how the work ends, and how long
the caller stays, in milliseconds. -/
structure Caller where
  start : Nat
  work : Nat
  ending : Ending
  patience : Option Nat

/-- What a caller gets in the end; it gets no answer if it gives up or if its work panics. -/
inductive CallerResult where
  | answered (answer : Except Error Unit)
  | gaveUp
  | panicked

structure CallerState where
  caller : Caller
  come : Bool := false
  ranAt : Option Nat := none
  /-- When it ended, and with what. -/
  ended : Option (Nat × CallerResult) := none

/-- A trial of one guard: the guard, its callers, and when the work was done. -/
structure GuardTrial where
  guard : Guard := {}
  callers : List CallerState
  doneAt : Option Nat := none

/-- What may happen next to a caller: it comes, its work ends, or it gives up. -/
inductive TrialEvent where
  | workEnds
  | comes
  | givesUp

namespace GuardTrial

def change (t : GuardTrial) (i : Nat) (f : CallerState → CallerState) : GuardTrial :=
  { t with callers := t.callers.modify i f }

def finish (t : GuardTrial) (now : Nat) (result : CallerResult) (ids : List Nat) : GuardTrial :=
  ids.foldl (fun t i => t.change i fun c => { c with ended := some (now, result) }) t

/-- Begins the work of the callers in `ids`, which the guard has let in. -/
def begin (t : GuardTrial) (now : Nat) (ids : List Nat) : GuardTrial :=
  ids.foldl (fun t i => t.change i fun c => { c with ranAt := some now }) t

/-- When what may happen next to the caller `i`, as a list of times and events. -/
def pending (i : Nat) (c : CallerState) : List (Nat × Nat × TrialEvent) :=
  match c.ended with
  | some _ => []
  | none =>
    if !c.come then [(c.caller.start, i, .comes)]
    else
      (c.ranAt.toList.map fun t => (t + c.caller.work, i, .workEnds))
        ++ c.caller.patience.toList.map fun p => (c.caller.start + p, i, .givesUp)

def earlier (a b : Nat × Nat × TrialEvent) : Nat × Nat × TrialEvent := if b.1 < a.1 then b else a

def next? (t : GuardTrial) : Option (Nat × Nat × TrialEvent) :=
  match (t.callers.mapIdx pending).flatten with
  | [] => none
  | e :: rest => some (rest.foldl earlier e)

/-- The caller `i` leaves without having finished, with `result`; the guard passes to the next
one. -/
def leave (t : GuardTrial) (now i : Nat) (result : CallerResult) : GuardTrial :=
  let (next, guard) := t.guard.withdraw i
  (({ t with guard } : GuardTrial).finish now result [i]).begin now next.toList

/-- What an event of the caller `i` does at the time `now`. -/
def happen (t : GuardTrial) (now i : Nat) : TrialEvent → GuardTrial
  | .comes =>
    let (turn, guard) := t.guard.enter i
    let t := ({ t with guard } : GuardTrial).change i fun c => { c with come := true }
    match turn with
    | .works => t.begin now [i]
    | .waits => t
    | .passes => t.finish now (.answered (.ok ())) [i]
  | .givesUp => t.leave now i .gaveUp
  | .workEnds =>
    let complete (answer : Except Error Unit) : GuardTrial :=
      let (waiting, guard) := t.guard.complete
      (({ t with guard, doneAt := some now } : GuardTrial).finish now (.answered answer)
        [i]).finish now (.answered (.ok ())) waiting
    match t.callers[i]? with
    | none => t
    | some c =>
      match c.caller.ending with
      | .panicked _ => t.leave now i .panicked
      | .failed e => complete (.error e)
      | .returned _ => complete (.ok ())

/-- Takes events one after the other, at most `n` of them. -/
def runWithin : Nat → GuardTrial → GuardTrial
  | 0, t => t
  | n + 1, t =>
    match t.next? with
    | some (now, i, e) => runWithin n (t.happen now i e)
    | none => t

/-- The trial of `callers`. Each of them has at most three events. -/
def run (callers : List Caller) : GuardTrial :=
  runWithin (3 * callers.length + 1) { callers := callers.map fun caller => { caller } }

def doneBy (t : GuardTrial) (now : Nat) : Bool :=
  match t.doneAt with
  | some d => decide (d ≤ now)
  | none => false

end GuardTrial
end Vigil.Rehearsal
