import Vigil.Interval.Recorder
import Vigil.Join
import Vigil.Shutdown
import Vigil.Storage.FileTree

/-!
# The scene of a run

What a run shares with its observers and with background work: the clock, the switches, the
recorder, the files and the metrics. A platform carries out what takes time: it makes the calls of
a phase and keeps the observation window open.

The module introduces:

* `Scene`, with a part of the platform's own;
* `JoinRequest`, the calls of one phase, and `Platform`, which makes them.
-/

namespace Vigil

/-- What a run shares with everything that goes on beside it: the clock, the switches, the recorder,
the files and the metrics. The type `ε` is that of what a platform keeps besides. -/
structure Scene (ε : Type) where
  /-- What the monotonic clock of the host reads at the start, in nanoseconds. -/
  origin : Nat
  /-- The time since the start, in milliseconds. -/
  clock : Nat := 0
  controls : Controls := {}
  recorder : Recorder := {}
  /-- Whether setup has been asked of the observers. Each observer has a flag of its own, but all of
  them are set before setup makes its first call, and they are read as a whole: either all of them
  are set or none is, so one flag stands for all. -/
  started : Bool := false
  files : FileTree := {}
  emitted : List Metrics.Emission := []
  /-- What the platform keeps for itself. -/
  inner : ε

def Scene.emit {ε : Type} (s : Scene ε) (emissions : List Metrics.Emission) : Scene ε :=
  { s with emitted := s.emitted ++ emissions }

section Emit

variable {ε : Type} (s : Scene ε) (emissions : List Metrics.Emission)

@[simp]
theorem Scene.origin_emit : (s.emit emissions).origin = s.origin := rfl

@[simp]
theorem Scene.clock_emit : (s.emit emissions).clock = s.clock := rfl

@[simp]
theorem Scene.controls_emit : (s.emit emissions).controls = s.controls := rfl

@[simp]
theorem Scene.recorder_emit : (s.emit emissions).recorder = s.recorder := rfl

@[simp]
theorem Scene.started_emit : (s.emit emissions).started = s.started := rfl

@[simp]
theorem Scene.inner_emit : (s.emit emissions).inner = s.inner := rfl

end Emit

/-- The calls of one phase that a platform is to make and join: one of the kind `call` for each of
the `targets`, within `limits`. -/
structure JoinRequest where
  targets : List Registration
  call : Call
  limits : JoinLimits

/-- What keeps an observation window open, and for how long. -/
inductive WindowRequest where
  /-- The caller's own work, unless the run is cancelled. -/
  | work
  /-- A span of time if there is one, unless the window is to end or the run is cancelled. -/
  | span (length : Option Duration)
  deriving DecidableEq, Repr

/-- What carries out the steps of a run that take time or read a clock. The orchestrator decides
what is called and what becomes of it; a platform decides how the calls end. -/
structure Platform (ε : Type) where
  /-- Makes the calls of a request and joins them. There are no outcomes when an instant has no
  room, or when the calls are never joined. -/
  join : JoinRequest → Scene ε → Option (List CallOutcome) × Scene ε
  /-- Keeps the window open. -/
  awaitWindow : WindowRequest → Scene ε → Scene ε
  wallClock : Scene ε → Timestamp

/-- Why a run does not go on: an `Error` that is returned, or a panic. -/
inductive Halt where
  | refused (error : Error)
  /-- A panic because an instant has no room. -/
  | overflow
  deriving DecidableEq

end Vigil
