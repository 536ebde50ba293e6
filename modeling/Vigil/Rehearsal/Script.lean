import Vigil.ClusterInfo
import Vigil.Guard
import Vigil.Scene

/-!
# Scripts

In a rehearsal observers follow scripts: for every phase a list of actions. The rehearsal notes what
happens to each of them as events.

The module introduces:

* `Action` and `Script`, what an observer does when it is called;
* `Event`, something that happened to an observer, and when.
-/

namespace Vigil.Rehearsal

/-- One action of an observer during a call; an observer's script lists them for each `Phase`. -/
inductive Action where
  | sleep (millis : Nat)
  | hang
  /-- Waits until the call is cancelled. -/
  | awaitCancel
  | cancelRun
  /-- Takes the next step of a shutdown. -/
  | escalate
  /-- Records an interval in the recorder that setup handed out. -/
  | record (interval : Interval)
  /-- Adds an interval to what the call returns. -/
  | yieldInterval (interval : Interval)
  /-- Adds an interval for each starting interval of a category, up to the end of the window. -/
  | deriveFrom (category : String)
  /-- Adds a record to what the call returns. -/
  | yieldRecord (record : Record)
  /-- Adds a record that passes if there are at most `most` final intervals of a category. -/
  | judge (name category : String) (most : Int)
  /-- Writes a value to a file of the observer; an error ends the call. -/
  | write (file : String) (value : Json.Value)
  /-- Ends the call with an error. -/
  | fail (error : Error)
  /-- Panics; the message is missing if it is no text. -/
  | panic (message : Option String)

structure Script where
  /-- Whether cleanup stands behind a guard. -/
  guarded : Bool := false
  phases : List (Phase × List Action) := []

/-- The actions of `phase` in the script `s`. -/
def Script.actions (s : Script) (phase : Phase) : List Action :=
  ((s.phases.find? fun e => e.1 == phase).map Prod.snd).getD []

/-- What may happen to an observer, as the log of a rehearsal notes it. -/
inductive Happening where
  /-- Its body begins, with what the call is given and whether the call is cancelled already. -/
  | entered (call : Call) (cancelled : Bool)
  /-- It recorded an interval; there is no answer without a recorder. -/
  | recorded (answer : Option (Except Error Unit))
  /-- It took a step of a shutdown. -/
  | escalated (step : ShutdownStep)
  | finished
  | failed (error : Error)
  | panicked
  | aborted
  /-- It is called, and its body stands behind a guard. -/
  | called
  /-- The guard lets the call return. -/
  | returned (answer : Except Error Unit)

structure Event where
  time : Nat
  phase : Phase
  what : Happening

/-- Who answers the calls of an observer: a script, or the built-in observer. -/
inductive Actor where
  | scripted (script : Script)
  | clusterInfo (memory : ClusterInfo)

/-- An observer in a rehearsal, with its `Guard` and the log of what happened to it. -/
structure Participant where
  registration : Registration
  actor : Actor
  /-- Whether setup has handed it the recorder. -/
  hasRecorder : Bool := false
  guard : Guard := {}
  /-- What happened to it, the oldest first. -/
  log : List Event := []

end Vigil.Rehearsal
