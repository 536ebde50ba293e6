import Mathlib.Data.List.Induction
import Vigil.Proofs.Schedule.Join

/-!
# What a command does to a run

Under every schedule a command does what it does on every platform, and its join does what `Joined`
says. Every invariant of runs follows from these cases.

The module introduces:

* `Asked`, the cases of a command, and `Rests`, what happens to a run between commands;
* `Run.after_induction`, the induction over what happens to a run, and `Run.after_invariant` for
  what does not depend on what was asked for.
-/

namespace Vigil.Schedule

/-- What the command `c` does to the run `r`, with its answer and the run after it: `Commanded`,
with the join of some schedule in place of the platform. -/
abbrev Asked (c : Command) (r : Run) : Except Halt Unit → Run → Prop :=
  Commanded (fun request s outcomes s' => Joined request s outcomes s') c r

/-- What a command does whose calls are made by `Conduct` under a schedule is one of the cases of
`Asked`. -/
theorem asked_of_commanded {c : Command} {r r' : Run} {answer : Except Halt Unit}
    (h : Commanded platform.Makes c r answer r') : Asked c r answer r' := by
  refine h.mono fun request s outcomes s' joins => ?_
  have joined := Stage.joined_join request s
  rw [show Stage.join request s = (outcomes, s') from joins] at joined
  exact joined

theorem asked_conduct (c : Command) (r : Run) :
    Asked c r (r.perform (c.conduct platform)).1 (r.perform (c.conduct platform)).2 :=
  asked_of_commanded (commanded_conduct platform c r)

/-- A command under a schedule does one of the things that `Asked` lists, once the run has been
given the schedule. -/
theorem asked_ask (c : Command) (slots : List Slot) (r : Run) :
    Asked c (r.updateScene fun s => s.stand .free slots) (r.ask c slots).1 (r.ask c slots).2 :=
  asked_conduct c _

theorem asked_of_ask {c : Command} {slots : List Slot} {r q : Run} {answer : Except Halt Unit}
    (h : r.ask c slots = (answer, q)) :
    Asked c (r.updateScene fun s => s.stand .free slots) answer q := by
  have asked := asked_ask c slots r
  rwa [h] at asked

/-- A command makes no calls, or it joins the calls of one `JoinRequest` and changes the world only
by that. -/
theorem Asked.world {c : Command} {r r' : Run} {answer : Except Halt Unit}
    (h : Asked c r answer r') :
    r'.world = r.world ∨ ∃ request s outcomes s',
      s.inner = r.world ∧ Joined request s outcomes s' ∧ r'.world = s'.inner := by
  have before (phase : Phase) : (r.sceneOf phase).inner = r.world := r.inner_sceneOf phase
  cases h with
  | refused => exact .inl rfl
  | skipped => exact .inl (by simp [Run.world, Progress.begun])
  | unjoined scene _ _ _ joined => exact .inr ⟨_, _, _, scene, before c.phase, joined, rfl⟩
  | joined outcomes scene _ _ _ joined =>
    exact .inr ⟨_, _, _, scene, before c.phase, joined, by
      simp [Run.world, Progress.settledWith]⟩
  | again => exact .inl rfl
  | uncleaned scene _ _ joined => exact .inr ⟨_, _, _, scene, rfl, joined, rfl⟩
  | cleaned outcomes scene _ _ joined => exact .inr ⟨_, _, _, scene, rfl, joined, rfl⟩

theorem Asked.isFree_of_ok {c : Command} {q q' : Run} (h : Asked c q (.ok ()) q')
    (free : q.isFree = true) : q'.isFree = true := by
  cases h with
  | skipped =>
    rw [Run.isFree, Run.world, Command.inner_settle]
    exact free
  | joined outcomes scene _ _ _ joined =>
    rw [Run.isFree, Run.world, Command.inner_settle]
    exact decide_eq_true (joined.free.2 rfl)
  | again => exact free
  | cleaned outcomes scene _ _ joined => exact decide_eq_true (joined.free.2 rfl)

/-! ## Induction over what happens to a run -/

/-- `r'` is what has become of `r` while nothing was asked of it: its orchestrator is the same, and
its scene has drifted. -/
structure Rests (r r' : Run) : Prop where
  /-- Nothing has happened to the orchestrator. -/
  orchestrator : r'.orchestrator = r.orchestrator
  drift : Drift Task.Later r.scene r'.scene
  standing : r'.world.standing = r.world.standing

/-- Whatever goes on beside a run, the run rests, which is the step lemma of `Rests` for moves. -/
theorem rests_move (r : Run) (m : Move) : Rests r (r.updateScene fun s => s.move m) where
  orchestrator := rfl
  drift := (drift_move r.scene m).mono fun _ _ h => h.toLater
  standing := by
    cases m with
    | record i =>
      obtain ⟨_, _, same⟩ := Stage.exists_move_record r.scene i
      simp only [Run.world, Run.updateScene, same]
    | _ => rfl

theorem rests_renew (r : Run) :
    Rests r (r.updateScene fun s =>
      { s with controls := { s.controls with runCancelled := false } }) where
  orchestrator := rfl
  drift := .of_eq Task.Later.refl rfl rfl rfl rfl rfl
  standing := rfl

theorem rests_stand {r : Run} (free : r.isFree = true) (slots : List Slot) :
    Rests r (r.updateScene fun s => s.stand .free slots) where
  orchestrator := rfl
  drift := .stand Task.Later.refl r.scene .free slots
  standing := (of_decide_eq_true free).symm

namespace Run

/-- The phases that were asked for in `acts`, in their order, whatever came of them. -/
def asked (acts : List Act) : List Phase :=
  acts.filterMap fun
    | .command c _ => some c.phase
    | _ => none

@[simp]
theorem after_nil (r : Run) : r.after [] = r := rfl

theorem after_concat (r : Run) (acts : List Act) (a : Act) :
    r.after (acts ++ [a]) = (r.after acts).act a := by
  simp [after]

theorem after_append (r : Run) (acts acts' : List Act) :
    r.after (acts ++ acts') = (r.after acts).after acts' := by
  simp [after]

theorem after_beside (r : Run) (moves : List Move) :
    r.after (moves.map .beside) = r.updateScene fun s => moves.foldl Stage.move s := by
  induction moves generalizing r with
  | nil => rfl
  | cons m moves ih => exact ih (r.act (.beside m))

theorem act_command {r : Run} (free : r.isFree = true) (c : Command) (slots : List Slot) :
    r.act (.command c slots) = (r.ask c slots).2 := by
  simp [act, free]

/-- What holds of a run at first, while it rests and after each command holds of it always. The
`motive` may depend on the phases that were asked for; a run that is not free ignores commands. -/
theorem after_induction {motive : List Phase → Run → Prop} {r : Run} (start : motive [] r)
    (rests : ∀ {phases : List Phase} {q q' : Run}, motive phases q → Rests q q' → motive phases q')
    (ignored : ∀ {phases : List Phase} {q : Run} (c : Command), motive phases q →
      q.isFree = false → motive (phases ++ [c.phase]) q)
    (asks : ∀ {phases : List Phase} {q q' : Run} {c : Command} {answer : Except Halt Unit},
      motive phases q → q.isFree = true → Asked c q answer q' → motive (phases ++ [c.phase]) q')
    (acts : List Act) : motive (asked acts) (r.after acts) := by
  induction acts using List.reverseRecOn with
  | nil => exact start
  | append_singleton acts a ih =>
    rw [after_concat, asked, List.filterMap_append]
    change motive (asked acts ++ _) _
    cases a with
    | beside m => simpa [act] using rests ih (rests_move _ m)
    | renewToken =>
      cases free : (r.after acts).isFree with
      | false => simpa [act, free] using ih
      | true => simpa [act, free] using rests ih (rests_renew _)
    | command c slots =>
      cases free : (r.after acts).isFree with
      | false => simpa [act, free] using ignored c ih free
      | true =>
        -- The run rests while the schedule of the command is put in place.
        have standing : motive (asked acts)
            ((r.after acts).updateScene fun s => s.stand .free slots) :=
          rests ih (rests_stand free slots)
        simpa [act, free] using asks standing rfl (asked_ask c slots (r.after acts))

/-- The same for a `motive` that does not depend on the phases that were asked for. -/
theorem after_invariant {motive : Run → Prop} {r : Run} (start : motive r)
    (rests : ∀ {q q' : Run}, motive q → Rests q q' → motive q')
    (asks : ∀ {q q' : Run} {c : Command} {answer : Except Halt Unit},
      motive q → q.isFree = true → Asked c q answer q' → motive q')
    (acts : List Act) : motive (r.after acts) :=
  after_induction (motive := fun _ q => motive q) start rests (fun _ h _ => h) asks acts

end Run
end Vigil.Schedule
