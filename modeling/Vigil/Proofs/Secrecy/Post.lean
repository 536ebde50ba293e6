import Mathlib.Data.List.InsertIdx
import Vigil.Live
import Vigil.Proofs.Custody
import Vigil.Proofs.Schedule.Simulation
import Vigil.Proofs.Secrecy.Redaction

/-!
# The built-in observer at its post

While a run goes on, the calls of the built-in observer take their steps one by one, and so do the
callers that force a cleanup. A script says who takes the next step; what the step does and how a
call ends is for the observer to say. No order of the steps is excluded, not even orders that no run
takes, such as a call that ends before its last step.

The module introduces:

* `Post`, the calls that were made, the observer, and the rest of the script;
* `Post.Deed`, one step of anything beside the run, and `Post.platform`, which carries out a run
  among such steps;
* `Post.exists_schedule`, by which a phase at a post is one of those that schedules allow;
* `Post.redact`, and that the platform of a post and that of a live run conceal secrets.
-/

namespace Vigil

open Schedule (Stage Move Slot Task Round World)

/-- Whether `m` goes on beside a run without being for an observer to decide or a change of files,
which a `Deed` says by other means. -/
def Schedule.Move.isForeign : Move → Bool
  | .finish .. => false
  | .write _ => false
  | _ => true

/-- Whether a step of a call needs nothing that the call was given, so that a script can name it
without knowing any secret. -/
def Custody.Event.isBare : Event → Bool
  | .notes _ => false
  | .writes .. => false
  | _ => true

/-- The call of a task that is running, which says what the task of `observer` was given. -/
def Schedule.World.running? (w : World) (round observer : Nat) : Option Call :=
  if (w.task? round observer).map Task.status = some .running then
    w.rounds[round]?.map fun r => r.request.call
  else none

namespace Post

/-- A step of something beside the run. It names calls by their round and observer, so that one
script serves two runs whose calls were given different secrets. -/
inductive Deed where
  /-- Something goes on that is not for the observer to decide. -/
  | beside (move : Move) (foreign : move.isForeign = true)
  /-- Others change the files. -/
  | amend (change : FileTree → FileTree)
  /-- A call to setup notes the facts about its access. -/
  | notes (round observer : Nat)
  /-- A call stores its access, or a caller of cleanup takes a step. -/
  | steps (event : Custody.Event) (bare : event.isBare = true)
  /-- A call ends. A call to storage writes its file before. -/
  | returns (round observer : Nat)

/-- One step of a script: a `Deed`, or the next step of the run. -/
inductive Cue where
  | run
  | deed (deed : Deed)

end Post

/-- What is kept of a run of the built-in observer besides its scene: the `World` of its calls, the
observer with the steps of `Custody`, and the rest of the script. -/
structure Post where
  world : World := {}
  /-- The observer, with the steps that its calls have taken. -/
  custody : Custody := {}
  script : List Post.Cue := []

namespace Post

/-- The scene `s` without the observer, on which lemmas about schedules apply. -/
def stage (s : Scene Post) : Stage := { s with inner := s.inner.world }

def onStage (f : Stage → Stage) (s : Scene Post) : Scene Post :=
  { f (stage s) with inner := { s.inner with world := (f (stage s)).inner } }

def onCustody (event : Custody.Event) (s : Scene Post) : Scene Post :=
  { s with inner := { s.inner with custody := s.inner.custody.step event } }

/-- What a `Deed` does. Steps of calls that are not under way do nothing. -/
def does (s : Scene Post) : Deed → Scene Post
  | .beside move _ => onStage (fun t => t.move move) s
  | .amend change => { s with files := change s.files }
  | .notes round observer =>
    match s.inner.world.running? round observer with
    | some (.setup access) => onCustody (.notes access) s
    | _ => s
  | .steps event _ => onCustody event s
  | .returns round observer =>
    match s.inner.world.running? round observer with
    | some call =>
      let (ending, _, files) := s.inner.custody.memory.answer s.files call
      onStage (fun t => t.move (.finish round observer ending)) { s with files }
    | none => s

def stand (s : Scene Post) (standing : Schedule.Standing) (script : List Cue) : Scene Post :=
  { onStage (fun t => t.stand standing []) s with
    inner := { (onStage (fun t => t.stand standing []) s).inner with script } }

/-- Joins the calls of `round` under a script, turn by turn as `Stage.await` does. -/
def await (request : JoinRequest) (round : Nat) :
    List Cue → Option Join → Scene Post → Option (List CallOutcome) × Scene Post
  | [], _, s => (none, stand s .joining [])
  | .deed d :: script, j, s => await request round script j (does s d)
  | .run :: script, j, s =>
    match j.bind (Join.outcomes? (s.inner.world.isOver round)) with
    | some outcomes => (some outcomes, stand s .free script)
    | none =>
      match (stage s).turn? request round j with
      | none => (none, stand s .panicked script)
      | some (j, stop) =>
        await request round script (some j) (onStage (fun t => t.abort round stop) s)

/-- Makes the calls of `request` and joins them under the script that the scene has kept. -/
def join (request : JoinRequest) (s : Scene Post) : Option (List CallOutcome) × Scene Post :=
  let round := s.inner.world.rounds.length
  let (outcomes, s) :=
    await request round s.inner.script none (onStage (fun t => t.spawn request) s)
  (outcomes, onStage (fun t => t.note round outcomes) s)

def idle : List Cue → Scene Post → Scene Post
  | [], s => stand s .free []
  | .deed d :: script, s => idle script (does s d)
  | .run :: script, s => stand s .free script

/-- The platform that carries out a run of the built-in observer under a script. -/
def platform : Platform Post where
  join := join
  awaitWindow := fun _ s => idle s.inner.script s
  wallClock := fun s => s.inner.world.present

/-! ## Scripts and schedules -/

/-- What a deed does on the stage goes on beside a run under some schedule as well, as a list of
moves. -/
theorem exists_moves (s : Scene Post) (d : Deed) :
    ∃ moves : List Move, stage (does s d) = moves.foldl Stage.move (stage s) := by
  cases d with
  | beside move => exact ⟨[move], rfl⟩
  | amend change => exact ⟨[.write (change s.files)], rfl⟩
  | steps => exact ⟨[], rfl⟩
  | notes round observer =>
    refine ⟨[], ?_⟩
    dsimp only [does]
    split <;> rfl
  | returns round observer =>
    dsimp only [does]
    split
    · next call running =>
      rcases s.inner.custody.memory.answer s.files call with ⟨ending, memory, files⟩
      exact ⟨[.write files, .finish round observer ending], rfl⟩
    · exact ⟨[], rfl⟩

theorem exists_await (request : JoinRequest) (round : Nat) (script : List Cue) (j : Option Join)
    (s : Scene Post) :
    ∃ slots, Stage.await request round slots j (stage s) =
      ((await request round script j s).1, stage (await request round script j s).2) := by
  induction script generalizing j s with
  | nil => exact ⟨[], rfl⟩
  | cons cue script ih =>
    cases cue with
    | deed d =>
      obtain ⟨moves, moved⟩ := exists_moves s d
      obtain ⟨slots, same⟩ := ih j (does s d)
      refine ⟨moves.map .beside ++ slots, ?_⟩
      rw [Stage.await_beside, ← moved, same]
      rfl
    | run =>
      -- The run takes the same turn here and there.
      have ended : (stage s).inner.isOver round = s.inner.world.isOver round := rfl
      unfold await
      cases returns : j.bind (Join.outcomes? (s.inner.world.isOver round)) with
      | some outcomes =>
        refine ⟨[.run], ?_⟩
        rw [Stage.await, ended, returns]
        rfl
      | none =>
        dsimp only
        cases turned : (stage s).turn? request round j with
        | none =>
          refine ⟨[.run], ?_⟩
          rw [Stage.await, ended, returns]
          dsimp only
          rw [turned]
          rfl
        | some next =>
          obtain ⟨j', stop⟩ := next
          obtain ⟨slots, same⟩ := ih (some j') (onStage (fun t => t.abort round stop) s)
          refine ⟨.run :: slots, ?_⟩
          rw [Stage.await, ended, returns]
          dsimp only
          rw [turned]
          exact same

/-- The calls of a phase at a post are joined as they are under some schedule, so that all that is
proved of schedules holds of scripts. -/
theorem exists_schedule (request : JoinRequest) (s : Scene Post) :
    ∃ slots, Stage.join request ((stage s).stand s.inner.world.standing slots) =
      ((join request s).1, stage (join request s).2) := by
  let round := s.inner.world.rounds.length
  obtain ⟨slots, same⟩ := exists_await request round s.inner.script none
    (onStage (fun t => t.spawn request) s)
  refine ⟨slots, ?_⟩
  have joined : Stage.await request round slots none
      (((stage s).stand s.inner.world.standing slots).spawn request) = _ :=
    (Stage.await_stand request round slots none s.inner.world.standing slots _).trans same
  exact congrArg (fun r => (r.1, r.2.note round r.1)) joined

end Post

/-! ## What is redacted -/

namespace ClusterInfo

def redact (c : ClusterInfo) : ClusterInfo := { c with access := c.access.map ClusterAccess.redact }

/-- The observer answers a redacted call as it answers the other one, and it puts the same files. -/
theorem answer_redact (c : ClusterInfo) (files : FileTree) (call : Call) :
    c.redact.answer files call.redact =
      ((c.answer files call).1, (c.answer files call).2.1.redact, (c.answer files call).2.2) := by
  cases call with
  | setup access =>
    have starts : c.redact.start access.redact = (c.start access).redact := by
      simp [start, redact]
    exact congrArg (fun memory => (Ending.returned {}, memory, files)) starts
  | storage dir suffix final resources =>
    -- The file is written from the facts alone.
    have stores : c.redact.store files dir suffix final resources =
        c.store files dir suffix final resources := rfl
    simp only [Call.redact, answer, stores]
    rcases c.store files dir suffix final resources with ⟨e | ⟨⟩, files'⟩ <;> rfl
  | cleanup =>
    have cleans : c.redact.cleanup = c.cleanup.redact := by
      unfold cleanup
      cases cleaned : c.cleaned <;> simp [redact, cleaned]
    exact congrArg (fun memory => (Ending.returned {}, memory, files)) cleans
  | collection | construction | evaluation => rfl

end ClusterInfo

namespace Custody

def Event.redact : Event → Event
  | .notes access => .notes access.redact
  | e => e

theorem Event.redact_of_isBare {e : Event} (bare : e.isBare = true) : e.redact = e := by
  cases e with
  | notes => cases bare
  | _ => rfl

/-- The observer with marks in place of all secrets that it or a call to it holds. -/
def redact (c : Custody) : Custody :=
  { c with memory := c.memory.redact, starting := c.starting.map ClusterAccess.redact }

@[simp]
theorem guard_redact (c : Custody) : c.redact.guard = c.guard := rfl

@[simp]
theorem forgotten_redact (c : Custody) : c.redact.forgotten = c.forgotten := rfl

/-- A redacted step does with the redacted observer what the other step does: `redact` commutes with
`step`. -/
theorem step_redact (c : Custody) (e : Event) : c.redact.step e.redact = (c.step e).redact := by
  cases e with
  | notes access =>
    simp [step, Event.redact, redact, ClusterInfo.note, ClusterInfo.redact]
  | stores start =>
    simp only [step, Event.redact, redact, List.getElem?_map]
    cases c.starting[start]? with
    | none => rfl
    | some access => simp [ClusterInfo.keep, ClusterInfo.redact, List.eraseIdx_map]
  | writes => rfl
  -- Who may clean up is for the guard to say, which no secret reaches.
  | comes caller =>
    simp only [step, Event.redact, guard_redact]
    rcases c.guard.enter caller with ⟨_ | _ | _, guard⟩ <;> rfl
  | forgets =>
    simp only [step, Event.redact, guard_redact, forgotten_redact]
    rw [apply_ite redact]
    rfl
  | finishes =>
    simp only [step, Event.redact, guard_redact, forgotten_redact]
    cases c.guard.worker with
    | none => rfl
    | some worker =>
      dsimp only
      rw [apply_ite redact]
      rfl
  | stops caller =>
    simp only [step, Event.redact, guard_redact]
    rw [apply_ite redact]
    rfl

end Custody

namespace Schedule

def Round.redact (r : Round) : Round :=
  { r with request := r.request.redact, length_tasks := r.length_tasks }

def World.redact (w : World) : World := { w with rounds := w.rounds.map Round.redact }

namespace World

variable (w : World)

@[simp]
theorem task?_redact (round observer : Nat) :
    w.redact.task? round observer = w.task? round observer := by
  simp only [task?, redact, List.getElem?_map, Option.bind_map]
  rfl

@[simp]
theorem isOver_redact (round : Nat) : w.redact.isOver round = w.isOver round := by
  funext observer
  simp [isOver]

@[simp]
theorem ending?_redact (round : Nat) : w.redact.ending? round = w.ending? round := by
  funext observer
  simp [ending?]

theorem running?_redact (round observer : Nat) :
    w.redact.running? round observer = (w.running? round observer).map Call.redact := by
  unfold running?
  rw [task?_redact]
  split
  · simp only [redact, List.getElem?_map, Option.map_map]
    rfl
  · rfl

theorem modify_redact {f g : Round → Round} (same : ∀ r, g r.redact = (f r).redact) (round : Nat) :
    (w.rounds.map Round.redact).modify round g = (w.rounds.modify round f).map Round.redact := by
  apply List.ext_getElem?
  intro n
  simp only [List.getElem?_modify, List.getElem?_map]
  cases w.rounds[n]? with
  | none => rfl
  | some r => by_cases here : round = n <;> simp [here, same]

theorem change_redact (round observer : Nat) (f : Task → Task) :
    w.redact.change round observer f = (w.change round observer f).redact := by
  unfold change
  exact congrArg (fun rounds => { w with rounds })
    (w.modify_redact (f := Round.change observer f) (g := Round.change observer f) (fun _ => rfl)
      round)

end World

namespace Stage

variable (t : Stage)

/-- What goes on beside a run looks at no secret, so it commutes with redaction. -/
theorem move_redact (m : Move) :
    Stage.move (t.map World.redact) m = (t.move m).map World.redact := by
  cases m with
  | enter n i => exact congrArg (fun inner => { t with inner }) (t.inner.change_redact n i _)
  | finish n i e => exact congrArg (fun inner => { t with inner }) (t.inner.change_redact n i _)
  | stop n i => exact congrArg (fun inner => { t with inner }) (t.inner.change_redact n i _)
  | record i =>
    cases closed : t.recorder.closed <;>
      simp [move, Scene.map, World.redact, Recorder.record, closed]
  | _ => rfl

theorem abort_redact (round : Nat) (stop : Option Nat) :
    Stage.abort round stop (t.map World.redact) = (Stage.abort round stop t).map World.redact := by
  cases stop with
  | none => rfl
  | some i => exact congrArg (fun inner => { t with inner }) (t.inner.change_redact round i _)

theorem spawn_redact (request : JoinRequest) :
    Stage.spawn request.redact (t.map World.redact) = (Stage.spawn request t).map World.redact := by
  simp only [spawn, updateWorld, Scene.map, World.redact, List.map_append]
  rfl

theorem note_redact (round : Nat) (outcomes : Option (List CallOutcome)) :
    Stage.note round outcomes (t.map World.redact) =
      (Stage.note round outcomes t).map World.redact :=
  congrArg (fun rounds => { t with inner := { t.inner with rounds } })
    (t.inner.modify_redact (f := fun r => { r with outcomes }) (g := fun r => { r with outcomes })
      (fun _ => rfl) round)

theorem turn?_redact (request : JoinRequest) (round : Nat) (j : Option Join) :
    Stage.turn? request.redact round (t.map World.redact) j = Stage.turn? request round t j := by
  have phase : request.redact.call.phase = request.call.phase := request.call.phase_redact
  have endings : (t.map World.redact).inner.ending? round = t.inner.ending? round :=
    t.inner.ending?_redact round
  unfold turn?
  rw [phase, endings]
  rfl

end Stage
end Schedule

namespace Post

/-- What is kept of a run with marks in place of all secrets, in the calls that were made and at the
observer. -/
def redact (k : Post) : Post := { k with world := k.world.redact, custody := k.custody.redact }

@[simp]
theorem world_redact (k : Post) : k.redact.world = k.world.redact := rfl

@[simp]
theorem memory_redact (k : Post) : k.redact.custody.memory = k.custody.memory.redact := rfl

@[simp]
theorem script_redact (k : Post) : k.redact.script = k.script := rfl

variable (s : Scene Post)

theorem onStage_redact (f g : Stage → Stage)
    (same : ∀ t : Stage, g (t.map World.redact) = (f t).map World.redact) :
    onStage g (s.map redact) = (onStage f s).map redact := by
  have staged : stage (s.map redact) = (stage s).map World.redact := rfl
  unfold onStage
  rw [staged, same]
  rfl

theorem onCustody_redact (e : Custody.Event) :
    onCustody e.redact (s.map redact) = (onCustody e s).map redact :=
  congrArg
    (fun custody => { s with inner := { s.inner with world := s.inner.world.redact, custody } })
    (s.inner.custody.step_redact e)

theorem does_redact (d : Deed) : does (s.map redact) d = (does s d).map redact := by
  cases d with
  | beside move =>
    let moved (t : Stage) : Stage := t.move move
    exact onStage_redact s moved moved fun t => t.move_redact move
  | amend change => rfl
  | steps event bare =>
    have same := onCustody_redact s event
    rw [Custody.Event.redact_of_isBare bare] at same
    exact same
  | notes round observer =>
    have running := s.inner.world.running?_redact round observer
    dsimp only [does]
    rw [Scene.inner_map, world_redact, running]
    cases s.inner.world.running? round observer with
    | none => rfl
    | some call =>
      cases call with
      | setup access => exact onCustody_redact s (.notes access)
      | _ => rfl
  | returns round observer =>
    have running := s.inner.world.running?_redact round observer
    dsimp only [does]
    rw [Scene.inner_map, world_redact, running]
    cases s.inner.world.running? round observer with
    | none => rfl
    | some call =>
      -- The observer writes the same and ends the call in the same way.
      have answers := s.inner.custody.memory.answer_redact s.files call
      dsimp only [Option.map_some]
      rw [memory_redact, Scene.files_map, answers]
      let finish : Move :=
        .finish round observer (s.inner.custody.memory.answer s.files call).1
      let moved (t : Stage) : Stage := t.move finish
      exact onStage_redact { s with files := (s.inner.custody.memory.answer s.files call).2.2 }
        moved moved fun t => t.move_redact finish

theorem await_redact (request : JoinRequest) (round : Nat) (script : List Cue) (j : Option Join) :
    await request.redact round script j (s.map redact) =
      ((await request round script j s).1, (await request round script j s).2.map redact) := by
  induction script generalizing j s with
  | nil => rfl
  | cons cue script ih =>
    cases cue with
    | deed d =>
      unfold await
      rw [does_redact]
      exact ih (does s d) j
    | run =>
      have ended : (s.map redact).inner.world.isOver round = s.inner.world.isOver round :=
        s.inner.world.isOver_redact round
      -- A turn looks at the clock, the switches and the tasks, which hold no secret.
      have turns : (stage (s.map redact)).turn? request.redact round j =
          (stage s).turn? request round j := Stage.turn?_redact (stage s) request round j
      unfold await
      rw [ended, turns]
      cases j.bind (Join.outcomes? (s.inner.world.isOver round)) with
      | some outcomes => rfl
      | none =>
        cases (stage s).turn? request round j with
        | none => rfl
        | some next =>
          obtain ⟨j', stop⟩ := next
          dsimp only
          rw [onStage_redact s (fun t => t.abort round stop) (fun t => t.abort round stop)
            fun t => t.abort_redact round stop]
          exact ih _ (some j')

theorem idle_redact (script : List Cue) :
    idle script (s.map redact) = (idle script s).map redact := by
  induction script generalizing s with
  | nil => rfl
  | cons cue script ih =>
    cases cue with
    | run => rfl
    | deed d =>
      unfold idle
      rw [does_redact]
      exact ih (does s d)

/-- A run of the built-in observer under a script shows no secret to anybody but the observer. -/
theorem conceals_platform : platform.Conceals redact where
  join request s := by
    let round := s.inner.world.rounds.length
    have rounds : (s.map redact).inner.world.rounds.length = round := List.length_map _
    have awaited := await_redact (onStage (fun t => t.spawn request) s) request round s.inner.script
      none
    rw [← onStage_redact s (fun t => t.spawn request) (fun t => t.spawn request.redact)
      fun t => t.spawn_redact request] at awaited
    change join request.redact (s.map redact) = ((join request s).1, (join request s).2.map redact)
    unfold join
    rw [rounds, Scene.inner_map, script_redact]
    dsimp only
    rw [awaited]
    refine Prod.ext rfl ?_
    let outcomes :=
      (await request round s.inner.script none (onStage (fun t => t.spawn request) s)).1
    exact onStage_redact _ (fun t => t.note round outcomes) (fun t => t.note round outcomes)
      fun t => t.note_redact round outcomes
  awaitWindow _ s := idle_redact s s.inner.script
  wallClock _ := rfl

end Post

namespace Live

def State.redact (k : State) : State := { k with memory := k.memory.redact }

@[simp]
theorem State.memory_redact (k : State) : k.redact.memory = k.memory.redact := rfl

theorem callAll_redact (call : Call) (s : Scene State) (targets : List Registration) :
    callAll call.redact (s.map State.redact) targets =
      ((callAll call s targets).1, (callAll call s targets).2.map State.redact) := by
  induction targets generalizing s with
  | nil => rfl
  | cons target targets ih =>
    have answers := s.inner.memory.answer_redact s.files call
    unfold callAll
    rw [Scene.inner_map, Scene.files_map, State.memory_redact, answers]
    rcases s.inner.memory.answer s.files call with ⟨ending, memory, files⟩
    dsimp only
    have rest := ih { s with files, inner := { s.inner with memory } }
    exact congrArg (fun r : List CallOutcome × Scene State => (ending.outcome :: r.1, r.2)) rest

/-- A live run shows no secret to anybody but the observer, just as a run under a script. -/
theorem conceals_platform : platform.Conceals State.redact where
  join request s := by
    have calls := callAll_redact request.call s request.targets
    change platform.join request.redact (s.map State.redact) = _
    simp only [platform, JoinRequest.redact, calls]
    rfl
  awaitWindow _ _ := rfl
  wallClock _ := rfl

end Live
end Vigil
