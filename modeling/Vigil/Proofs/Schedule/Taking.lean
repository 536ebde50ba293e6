import Vigil.Proofs.Schedule.Commands

/-!
# Taking intervals one by one

What waits in the recorder is taken one interval after the other until none is left, and the
recorder is closed in a step of its own. Anything may go on beside the run between two of these
steps. A run whose steps are not told apart is a run of this kind, beside which nothing goes on
meanwhile.

The module introduces:

* `Conduct.collectWith` and `Conduct.constructWith`, the two phases that take what was recorded, for
  any way to do so;
* `Stage.take`, how the intervals are taken under a schedule;
* `Course`, the schedule of a command step by step, and `Step` and `Run.afterSteps`, what can happen
  to a run and the run after it;
* `Run.afterSteps_invariant`, the induction over what happens to a run.
-/

namespace Vigil

namespace Conduct

variable {ε : Type} (platform : Platform ε)

/-- Collection with `take` in place of how it takes what was recorded. -/
def collectWith (take : Conduct ε Timeline) (dir : String) (window : Window) : Conduct ε Unit := do
  let settlement ← phase platform (.collection dir window)
  let recorded ← take
  let raw := (recorded ++ ⟨(settlement.getD {}).intervals⟩ : Timeline).sort
  update fun o => { o with raw }

/-- Construction with `take` and `close` in place of how it takes what was recorded and closes the
recorder. -/
def constructWith (take : Conduct ε Timeline) (close : Conduct ε Unit) (resources : Resources)
    (window : Window) : Conduct ε Unit := do
  let settlement ← phase platform (.construction (← get).orchestrator.raw resources window)
  let recorded ← take
  close
  let raw := (← get).orchestrator.raw
  let final := (raw ++ ⟨(settlement.getD {}).intervals⟩ ++ recorded : Timeline).sort
  updateScene fun s => s.emit [Metrics.intervals final.size]
  update fun o => { o with final }

theorem collectWith_drain (dir : String) (window : Window) :
    collectWith platform drain dir window = collect platform dir window := rfl

/-- Construction is `constructWith` that drains the recorder at once and then closes it. -/
theorem constructWith_drain (resources : Resources) (window : Window) :
    constructWith platform drain closeRecorder resources window =
      construct platform resources window := rfl

end Conduct

namespace Schedule

def Move.interval? : Move → Option Interval
  | .record i => some i
  | _ => none

namespace Stage

/-- Takes intervals one by one, each in a turn of the run, until none waits; moves go on between the
turns. What still waits when the schedule is over is taken at once. -/
def take : List Slot → Stage → Timeline × Stage
  | [], s =>
    let (taken, recorder) := s.recorder.drain
    (taken, { s with recorder })
  | .beside m :: slots, s => take slots (s.move m)
  | .run :: slots, s =>
    match s.recorder.take with
    | (none, recorder) => (.empty, { s with recorder })
    | (some i, recorder) =>
      let (rest, s) := take slots { s with recorder }
      (⟨i :: rest.intervals⟩, s)

/-- The stage `s` on which nothing waits in the recorder any more. -/
def drained (s : Stage) : Stage := { s with recorder := { s.recorder with queue := [] } }

/-- The stage `s` on which the interval `i` waits before all others. -/
def waitingFor (i : Interval) (s : Stage) : Stage :=
  { s with recorder := { s.recorder with queue := i :: s.recorder.queue } }

theorem move_waitingFor (i : Interval) (s : Stage) (m : Move) :
    (s.waitingFor i).move m = (s.move m).waitingFor i := by
  cases m with
  | record j =>
    cases closed : s.recorder.closed <;> simp [move, waitingFor, Recorder.record, closed]
  | _ => rfl

theorem foldl_move_waitingFor (i : Interval) (moves : List Move) (s : Stage) :
    moves.foldl move (s.waitingFor i) = (moves.foldl move s).waitingFor i := by
  induction moves generalizing s with
  | nil => rfl
  | cons m moves ih =>
    rw [List.foldl_cons, List.foldl_cons, move_waitingFor]
    exact ih (s.move m)

/-- Whatever goes on while intervals are taken one by one, it is as if some of it went on before,
and then all that waits were taken at once. So `take` needs no theory of its own. -/
theorem take_eq (slots : List Slot) (s : Stage) :
    ∃ moves : List Move, take slots s =
      (⟨(moves.foldl move s).recorder.queue⟩, (moves.foldl move s).drained) := by
  induction slots generalizing s with
  | nil => exact ⟨[], by simp [take, Recorder.drain_eq, drained]⟩
  | cons slot slots ih =>
    cases slot with
    | beside m =>
      obtain ⟨moves, taken⟩ := ih (s.move m)
      exact ⟨m :: moves, taken⟩
    | run =>
      unfold take
      cases queue : s.recorder.queue with
      | nil =>
        refine ⟨[], ?_⟩
        obtain ⟨origin, clock, controls, ⟨waiting, closed⟩, started, files, emitted, inner⟩ := s
        cases queue
        rfl
      | cons i rest =>
        -- Taking the oldest interval now or after all that is still to go on is the same.
        let later : Stage := { s with recorder := { s.recorder with queue := rest } }
        have now : s = later.waitingFor i := by
          simp only [later, waitingFor, ← queue]
        obtain ⟨moves, taken⟩ := ih later
        refine ⟨moves, ?_⟩
        have first : s.recorder.take = (some i, later.recorder) := by
          simp [Recorder.take, queue, later]
        rw [first]
        dsimp only
        rw [taken, now, foldl_move_waitingFor]
        rfl

end Stage

/-! ## Commands step by step -/

def takeUnder (slots : List Slot) : Conduct World Timeline := do
  let (taken, s) := Stage.take slots (← get).scene
  Conduct.updateScene fun _ => s
  pure taken

def closeAfter (moves : List Move) : Conduct World Unit := do
  Conduct.updateScene fun s => moves.foldl Stage.move s
  Conduct.closeRecorder

/-- The schedule of a command with its steps told apart: what goes on while its calls are joined,
while it takes intervals, and before it closes the recorder. -/
structure Course where
  /-- While its calls are joined. -/
  joins : List Slot := []
  /-- While it takes what was recorded. -/
  takes : List Slot := []
  /-- What goes on from then until it closes the recorder. -/
  closes : List Move := []

/-- What a command does step by step, with `course` as the schedule of its steps. -/
def conductUnder (course : Course) : Command → Conduct World Unit
  | .collect dir window => Conduct.collectWith platform (takeUnder course.takes) dir window
  | .construct resources window =>
    Conduct.constructWith platform (takeUnder course.takes) (closeAfter course.closes) resources
      window
  | c => c.conduct platform

/-- What a command does step by step once its phase is over, whatever the `settlement` of that phase
is. -/
def settleUnder (course : Course) (c : Command) (settlement : Option Settlement) (p : Run) : Run :=
  let yields : Timeline := ⟨(settlement.getD {}).intervals⟩
  match c with
  | .collect .. =>
    let (taken, s) := Stage.take course.takes p.scene
    { orchestrator := { p.orchestrator with raw := (taken ++ yields).sort }, scene := s }
  | .construct .. =>
    let (taken, s) := Stage.take course.takes p.scene
    let s := course.closes.foldl Stage.move s
    let final := (p.orchestrator.raw ++ yields ++ taken).sort
    { orchestrator := { p.orchestrator with final }
      scene := { s with recorder := s.recorder.close }.emit [Metrics.intervals final.size] }
  | _ => p

@[simp]
theorem state_settleUnder (course : Course) (c : Command) (settlement : Option Settlement)
    (p : Run) : (settleUnder course c settlement p).orchestrator.state = p.orchestrator.state := by
  cases c <;> rfl

/-- Only collection and construction have something to do after their phase. -/
theorem settleUnder_of_other (course : Course) {c : Command} (first : c.phase ≠ .collection)
    (second : c.phase ≠ .construction) (settlement : Option Settlement) (p : Run) :
    settleUnder course c settlement p = p := by
  cases c with
  | collect => exact absurd rfl first
  | construct => exact absurd rfl second
  | _ => rfl

/-- What the steps of a working command come to: its phase, and then `settleUnder`. -/
theorem perform_conductUnder (course : Course) {c : Command} (working : c.phase ≠ .cleanup)
    (p : Run) :
    p.perform (conductUnder course c) =
      match p.perform (Conduct.phase platform (c.call p)) with
      | (.ok settlement, q) => (.ok (), settleUnder course c settlement q)
      | (.error h, q) => (.error h, q) := by
  -- Only collection and construction take something over in steps of their own.
  cases c with
  | collect dir window =>
    simp only [conductUnder, Conduct.collectWith, Progress.perform_bind, Command.call]
    rcases p.perform (Conduct.phase platform (.collection dir window)) with ⟨h | settlement, q⟩
    · rfl
    · simp [takeUnder, Progress.perform_bind, settleUnder, Except.map]
  | construct resources window =>
    simp only [conductUnder, Conduct.constructWith, Progress.perform_bind, Progress.perform_get,
      Command.call]
    rcases p.perform (Conduct.phase platform (.construction p.orchestrator.raw resources window))
      with ⟨h | settlement, q⟩
    · rfl
    · simp [takeUnder, closeAfter, Conduct.closeRecorder, Progress.perform_bind, settleUnder,
        Except.map]
  | cleanup => exact absurd rfl working
  | setup | evaluate | store =>
    refine (Command.perform_conduct platform working p).trans ?_
    rcases p.perform (Conduct.phase platform _) with ⟨h | settlement, q⟩ <;> rfl

/-- A command beside which nothing goes on after its phase does all that at once, as
`Command.conduct` has it. -/
theorem conductUnder_joins (slots : List Slot) (c : Command) :
    conductUnder { joins := slots } c = c.conduct platform := by
  have take : takeUnder [] = Conduct.drain := rfl
  have close : closeAfter [] = Conduct.closeRecorder := rfl
  cases c with
  | collect dir window => exact congrArg (Conduct.collectWith platform · dir window) take
  | construct resources window =>
    simp only [conductUnder, take, close]
    rfl
  | _ => rfl

/-- Something that happens to a run, as an `Act`, with the steps of its commands told apart. -/
inductive Step where
  | beside (move : Move)
  /-- It is given another token, by which it is not cancelled. -/
  | renewToken
  /-- It is asked for something, and this is the schedule while it is carried out. -/
  | command (command : Command) (course : Course)

/-- An `Act` as a `Step` whose command has nothing go on after its phase. -/
def Act.step : Act → Step
  | .beside m => .beside m
  | .renewToken => .renewToken
  | .command c slots => .command c { joins := slots }

namespace Run

def askUnder (r : Run) (c : Command) (course : Course) : Except Halt Unit × Run :=
  (r.updateScene fun s => s.stand .free course.joins).perform (conductUnder course c)

/-- The run after a `Step`. Nothing is asked of a run in the midst of a phase or after a panic. -/
def step (r : Run) : Step → Run
  | .beside m => r.act (.beside m)
  | .renewToken => r.act .renewToken
  | .command c course => if r.isFree then (r.askUnder c course).2 else r

def afterSteps (r : Run) (steps : List Step) : Run := steps.foldl step r

@[simp]
theorem afterSteps_nil (r : Run) : r.afterSteps [] = r := rfl

theorem afterSteps_concat (r : Run) (steps : List Step) (x : Step) :
    r.afterSteps (steps ++ [x]) = (r.afterSteps steps).step x := by
  simp [afterSteps]

theorem step_command {r : Run} (free : r.isFree = true) (c : Command) (course : Course) :
    r.step (.command c course) = (r.askUnder c course).2 := by
  simp [step, free]

/-- The acts of a run are steps of it: `afterSteps` has every run of `after`. -/
theorem afterSteps_map_step (r : Run) (acts : List Act) :
    r.afterSteps (acts.map Act.step) = r.after acts := by
  induction acts generalizing r with
  | nil => rfl
  | cons a acts ih =>
    have same : r.step a.step = r.act a := by
      cases a with
      | beside m => rfl
      | renewToken => rfl
      | command c slots => rw [Act.step, step, askUnder, conductUnder_joins]; rfl
    rw [List.map_cons, afterSteps, List.foldl_cons, same]
    exact ih (r.act a)

end Run

/-! ## Induction over what happens to a run -/

/-- `r'` is what has become of `r` while nothing was asked of it and its tasks went on: it rests,
time may have passed, and a closed recorder has let nothing in. -/
structure Idles (r r' : Run) : Prop extends Rests r r' where
  clock : r.scene.clock ≤ r'.scene.clock
  /-- A closed recorder has let nothing in. -/
  silent : r.scene.recorder.closed = true → r'.world.accepted = r.world.accepted

theorem Idles.isFree_eq {r r' : Run} (h : Idles r r') : r'.isFree = r.isFree := by
  rw [Run.isFree, h.standing, Run.isFree]

theorem Stage.clock_move (s : Stage) (m : Move) : s.clock ≤ (s.move m).clock := by
  cases m with
  | elapse millis => exact Nat.le_add_right s.clock millis
  | record i =>
    obtain ⟨_, _, same⟩ := s.exists_move_record i
    exact Nat.le_of_eq (congrArg Scene.clock same).symm
  | _ => exact Nat.le_refl s.clock

theorem Stage.clock_moves (moves : List Move) (s : Stage) :
    s.clock ≤ (moves.foldl move s).clock := by
  induction moves generalizing s with
  | nil => exact Nat.le_refl s.clock
  | cons m moves ih => exact Nat.le_trans (s.clock_move m) (ih (s.move m))

theorem Stage.standing_moves (moves : List Move) (s : Stage) :
    (moves.foldl move s).inner.standing = s.inner.standing := by
  induction moves generalizing s with
  | nil => rfl
  | cons m moves ih =>
    refine (ih (s.move m)).trans ?_
    cases m with
    | record i =>
      obtain ⟨_, _, same⟩ := s.exists_move_record i
      rw [same]
    | _ => rfl

theorem idles_move (r : Run) (m : Move) : Idles r (r.updateScene fun s => s.move m) where
  toRests := rests_move r m
  clock := Stage.clock_move r.scene m
  silent closed := by
    cases m with
    | record i => simp [Run.world, Run.updateScene, Stage.move, Recorder.record, closed]
    | _ => rfl

theorem idles_renew (r : Run) :
    Idles r (r.updateScene fun s =>
      { s with controls := { s.controls with runCancelled := false } }) where
  toRests := rests_renew r
  clock := Nat.le_refl r.scene.clock
  silent _ := rfl

theorem idles_stand {r : Run} (free : r.isFree = true) (slots : List Slot) :
    Idles r (r.updateScene fun s => s.stand .free slots) where
  toRests := rests_stand free slots
  clock := Nat.le_refl r.scene.clock
  silent _ := rfl

/-- What holds of a run at first, while it idles and after each command of a `Course` holds of it
always. -/
theorem Run.afterSteps_invariant {motive : Run → Prop} {r : Run} (start : motive r)
    (idles : ∀ {q q' : Run}, motive q → Idles q q' → motive q')
    (asks : ∀ {q : Run} (c : Command) (course : Course), motive q →
      motive (q.perform (conductUnder course c)).2)
    (steps : List Step) : motive (r.afterSteps steps) := by
  induction steps using List.reverseRecOn with
  | nil => exact start
  | append_singleton steps x ih =>
    rw [afterSteps_concat]
    let q := r.afterSteps steps
    cases x with
    | beside m => exact idles ih (idles_move q m)
    | renewToken =>
      change motive (if q.isFree = true then _ else q)
      split
      · exact idles ih (idles_renew q)
      · exact ih
    | command c course =>
      change motive (if q.isFree = true then _ else q)
      split
      · -- A command that is carried out is given its schedule first, which is idling.
        next free => exact asks c course (idles ih (idles_stand free course.joins))
      · exact ih

end Schedule
end Vigil
