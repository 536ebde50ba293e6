import Vigil.Proofs.Driver
import Vigil.Proofs.Escalation
import Vigil.Proofs.Recording
import Vigil.Proofs.Schedule.Simulation
import Vigil.Proofs.Schedule.Whole

/-!
# Runs to which signals come

Here only signals and the end of the window throw switches. Such a run is cancelled only by a signal
that came after the window was to end, and a run to which no such signal came takes its course. A
session is a run of this kind: whatever goes on beside it, its window is over at one point, between
setup and collection, and the session ends it there.

The module introduces:

* `Schedule.Cue`, what can happen to a run whose switches only signals and the end of the window
  throw, and `Schedule.Attendance`, such a run with the events in their order;
* `Schedule.Attended`, what is certain of these runs;
* `Schedule.Watch`, what goes on beside a session to which signals come, and `Session.Attends`,
  which ties such a session to an attendance.
-/

namespace Vigil
namespace Schedule

/-- Something that happens to a run whose switches only signals and the end of the window throw. A
command comes with the `Beat`s that go on while it is carried out. -/
inductive Cue where
  | beside (move : Move) (quiet : move.Quiet)
  | windowOver
  | signal
  | command (c : Command) (beats : List Beat)

namespace Cue

/-- What the cue is to a run whose switches are as in `c`: one `Act`, in which a signal is the move
that `signalMove` has it make. -/
def act (c : Controls) : Cue → Act
  | .beside m _ => .beside m
  | .windowOver => .beside .endWindow
  | .signal => .beside (signalMove c)
  | .command asked beats => .command asked (Beat.slots c beats)

/-- The events that happen to the run `r` by this cue. What is left of a schedule when a command
returns never happens, so its signals do not count. -/
def events (r : Run) : Cue → List Controls.Event
  | .beside _ _ => []
  | .windowOver => [.endWindow]
  | .signal => [.signal]
  | .command c beats =>
    if r.isFree then
      let left := (r.ask c (Beat.slots r.scene.controls beats)).2.world.slots
      Beat.events (beats.take (beats.length - left.length))
    else []

end Cue

/-- A run to which signals come, with the acts that have led to it and with the `history` of its
switches. -/
structure Attendance where
  run : Run
  acts : List Act := []
  /-- The signals and the ends of the window, in the order in which they came; the schedules of the
  commands are among them as far as they were followed. -/
  history : List Controls.Event := []

namespace Attendance

def cue (a : Attendance) (x : Cue) : Attendance where
  run := a.run.act (x.act a.run.scene.controls)
  acts := a.acts ++ [x.act a.run.scene.controls]
  history := a.history ++ x.events a.run

/-- What becomes of the run `r` when all of `cues` happen to it, one after the other. -/
def of (r : Run) (cues : List Cue) : Attendance := cues.foldl cue { run := r }

theorem of_concat (r : Run) (cues : List Cue) (x : Cue) :
    of r (cues ++ [x]) = (of r cues).cue x := by
  simp [of]

end Attendance

/-- The invariant of an attendance that began with the run `start`: its switches are as its
`history` has left them, and it has seen no other cancellation. -/
structure Heeding (start : Run) (a : Attendance) : Prop where
  run_eq : a.run = start.after a.acts
  controls : a.run.scene.controls = start.scene.controls.after a.history
  /-- Nobody but a signal cancels the run. -/
  alone : .cancelRun ∉ a.history
  heeds : a.run.orchestrator.cancelled = true → a.run.scene.controls.runCancelled = true
  unabandoned : a.run.scene.controls.runCancelled = false → a.run.world.Unabandoned

namespace Heeding

variable {start : Run} {a : Attendance}

/-- What has to be known of an act `x`, and of the `events` that it stands for, to keep
`Heeding`. -/
theorem grow (h : Heeding start a) (x : Act) {events : List Controls.Event}
    (signals : .cancelRun ∉ events)
    (controls : (a.run.act x).scene.controls = a.run.scene.controls.after events)
    (heeds : (a.run.act x).orchestrator.cancelled = true →
      (a.run.act x).scene.controls.runCancelled = true)
    (unabandoned : a.run.world.Unabandoned → (a.run.act x).scene.controls.runCancelled = false →
      (a.run.act x).world.Unabandoned) :
    Heeding start ⟨a.run.act x, a.acts ++ [x], a.history ++ events⟩ where
  run_eq := by rw [Run.after_concat, ← h.run_eq]
  controls := by rw [Controls.after_append, ← h.controls, controls]
  alone member := (List.mem_append.1 member).elim h.alone signals
  heeds := heeds
  unabandoned going := by
    refine unabandoned (h.unabandoned ?_) going
    -- A cancellation before would have stayed.
    refine Bool.eq_false_iff.2 fun cancelled => ?_
    have kept := (Controls.kept_after a.run.scene.controls events).runCancelled cancelled
    rw [← controls, going] at kept
    cases kept

theorem rests (h : Heeding start a) (m : Move) (events : List Controls.Event)
    (signals : .cancelRun ∉ events)
    (controls : (Stage.move a.run.scene m).controls = a.run.scene.controls.after events) :
    Heeding start
      ⟨a.run.act (.beside m), a.acts ++ [.beside m], a.history ++ events⟩ := by
  refine h.grow (.beside m) signals controls (fun cancelled => ?_) fun before _ => ?_
  · have kept := (Controls.kept_after a.run.scene.controls events).runCancelled (h.heeds cancelled)
    rw [← controls] at kept
    exact kept
  · unfold World.Unabandoned
    rw [show (a.run.act (.beside m)).world.ledger = a.run.world.ledger from
      (rests_move a.run m).drift.world.ledger]
    exact before

theorem not_cancelRun_of_beats (beats : List Beat) : .cancelRun ∉ Beat.events beats := by
  induction beats with
  | nil => exact List.not_mem_nil
  | cons beat beats ih =>
    cases beat with
    | signal => simpa [Beat.events] using ih
    | _ => exact ih

/-- Whatever happens to a run, it heeds its events: the step lemma of `Heeding`. -/
theorem cue (h : Heeding start a) (x : Cue) : Heeding start (a.cue x) := by
  cases x with
  | beside m quiet =>
    exact h.rests m [] List.not_mem_nil (Stage.controls_move_quiet a.run.scene quiet)
  | windowOver => exact h.rests .endWindow [.endWindow] (by decide) rfl
  | signal =>
    exact h.rests _ [.signal] (by decide) (Stage.controls_move_signal a.run.scene)
  | command c beats =>
    let slots := Beat.slots a.run.scene.controls beats
    cases free : a.run.isFree with
    | false =>
      -- A run that is not free ignores what it is asked for.
      have ignored : a.run.act (.command c slots) = a.run := by simp [Run.act, free]
      have none : (Cue.command c beats).events a.run = [] := by simp [Cue.events, free]
      rw [Attendance.cue, none]
      refine h.grow (.command c slots) List.not_mem_nil ?_ ?_ ?_ <;> rw [ignored]
      · rfl
      · exact h.heeds
      · exact fun before _ => before
    | true =>
      have asked : a.run.act (.command c slots) = (a.run.ask c slots).2 :=
        Run.act_command free c slots
      have commanded := commanded_conduct platform c
        (a.run.updateScene fun s => s.stand .free slots)
      have events : (Cue.command c beats).events a.run =
          Beat.events (beats.take (beats.length - (a.run.ask c slots).2.world.slots.length)) := by
        simp [Cue.events, free, slots]
      rw [Attendance.cue, events]
      refine h.grow (.command c slots) (not_cancelRun_of_beats _) ?_ ?_ ?_ <;> rw [asked]
      · exact controls_of_commanded commanded rfl
      · exact heeds_of_commanded commanded h.heeds
      · intro before going
        have standing : World.Unabandoned (Run.world
            (a.run.updateScene fun s => s.stand .free slots)) := before
        exact unabandoned_of_commanded commanded standing going

end Heeding

theorem heeding_of (runId : String) (registry : Registry) (limits : Limits) (origin : Nat)
    (cues : List Cue) :
    Heeding (Run.new runId registry limits origin)
      (.of (Run.new runId registry limits origin) cues) := by
  induction cues using List.reverseRecOn with
  | nil =>
    exact
      { run_eq := rfl
        controls := rfl
        alone := List.not_mem_nil
        heeds := fun cancelled => absurd cancelled Bool.false_ne_true
        unabandoned := fun _ e he => absurd he List.not_mem_nil }
  | append_singleton cues x ih =>
    rw [Attendance.of_concat]
    exact ih.cue x

/-! ## Sessions to which signals come -/

namespace Stage

/-- The stage `s` with other intervals listed as let in. Only statements about runs look at that
list. -/
def listing (s : Stage) (accepted : List Interval) : Stage :=
  s.updateWorld fun w => { w with accepted }

variable (s : Stage) (accepted : List Interval)

theorem exists_move_listing (m : Move) :
    ∃ accepted', (s.listing accepted).move m = (s.move m).listing accepted' := by
  cases m with
  | record i =>
    cases closed : s.recorder.closed with
    | true => exact ⟨accepted, by simp [move, listing, updateWorld, Recorder.record, closed]⟩
    | false =>
      exact ⟨accepted ++ [i], by simp [move, listing, updateWorld, Recorder.record, closed]⟩
  | _ => exact ⟨accepted, rfl⟩

/-- A join comes to the same, whatever is listed: neither `Stage.turn?` nor any move reads the
list. -/
theorem exists_await_listing (request : JoinRequest) (round : Nat) (slots : List Slot)
    (j : Option Join) :
    ∃ accepted', await request round slots j (s.listing accepted) =
      ((await request round slots j s).1, (await request round slots j s).2.listing accepted') := by
  induction slots generalizing j s accepted with
  | nil => exact ⟨accepted, rfl⟩
  | cons slot slots ih =>
    cases slot with
    | beside m =>
      obtain ⟨accepted', moved⟩ := s.exists_move_listing accepted m
      rw [await, moved]
      exact ih (s.move m) accepted' j
    | run =>
      -- A turn looks at the clock, the switches and the calls, but not at the list.
      have isOver : (s.listing accepted).inner.isOver round = s.inner.isOver round := rfl
      have turns : (s.listing accepted).turn? request round j = s.turn? request round j := rfl
      have aborts (stop : Option Nat) :
          (s.listing accepted).abort round stop = (s.abort round stop).listing accepted := by
        cases stop <;> rfl
      rw [await, await, isOver, turns]
      cases j.bind (Join.outcomes? (s.inner.isOver round)) with
      | some outcomes => exact ⟨accepted, rfl⟩
      | none =>
        cases s.turn? request round j with
        | none => exact ⟨accepted, rfl⟩
        | some turned =>
          obtain ⟨accepted', same⟩ := ih (s.abort round turned.2) accepted (some turned.1)
          rw [← aborts] at same
          exact ⟨accepted', same⟩

theorem exists_join_listing (request : JoinRequest) :
    ∃ accepted', (s.listing accepted).join request =
      ((s.join request).1, (s.join request).2.listing accepted') := by
  obtain ⟨accepted', same⟩ := exists_await_listing (s.spawn request) accepted request
    s.inner.rounds.length s.inner.slots none
  have awaited : await request s.inner.rounds.length s.inner.slots none
      ((s.listing accepted).spawn request) = _ := same
  refine ⟨accepted', ?_⟩
  rw [join, show (s.listing accepted).inner.rounds = s.inner.rounds from rfl,
    show (s.listing accepted).inner.slots = s.inner.slots from rfl, awaited]
  rfl

end Stage

def Run.listing (r : Run) (accepted : List Interval) : Run :=
  r.updateScene fun s => s.listing accepted

theorem exists_conduct_listing (r : Run) (accepted : List Interval) (c : Command) :
    ∃ accepted', (r.listing accepted).perform (c.conduct platform) =
      ((r.perform (c.conduct platform)).1,
        Run.listing (r.perform (c.conduct platform)).2 accepted') := by
  obtain ⟨answer, q, commanded⟩ := exists_commanded platform c r
  rw [commanded.perform_eq]
  have joins {request : JoinRequest} {s scene : Stage} {outcomes : Option (List CallOutcome)}
      (makes : platform.Makes request s outcomes scene) (accepted : List Interval) :
      ∃ accepted', platform.Makes request (s.listing accepted) outcomes
        (scene.listing accepted') := by
    obtain ⟨accepted', same⟩ := s.exists_join_listing accepted request
    rw [show s.join request = (outcomes, scene) from makes] at same
    exact ⟨accepted', same⟩
  have sceneOf (phase : Phase) :
      (r.listing accepted).sceneOf phase = Stage.listing (r.sceneOf phase) accepted := by
    unfold Progress.sceneOf
    split <;> rfl
  have settles (accepted' : List Interval) (settlement : Option Settlement) (p : Run) :
      c.settle settlement (Run.listing p accepted') =
        Run.listing (c.settle settlement p) accepted' := by
    cases c <;> rfl
  have calls : c.call (r.listing accepted) = c.call r := by
    cases c <;> rfl
  -- Every case of the command is the same case of the other run.
  suffices later : ∃ accepted', Commanded platform.Makes c (r.listing accepted) answer
      (Run.listing q accepted') by
    obtain ⟨accepted', later⟩ := later
    exact ⟨accepted', later.perform_eq⟩
  cases commanded with
  | refused working unready => exact ⟨accepted, .refused working unready⟩
  | skipped working ready cancelled =>
    refine ⟨accepted, ?_⟩
    rw [← settles]
    exact .skipped working ready cancelled
  | unjoined scene working ready going unjoined =>
    obtain ⟨accepted', made⟩ := joins unjoined accepted
    rw [← sceneOf, ← calls] at made
    exact ⟨accepted', .unjoined _ working ready going made⟩
  | joined outcomes scene working ready going joined =>
    obtain ⟨accepted', made⟩ := joins joined accepted
    refine ⟨accepted', ?_⟩
    rw [← sceneOf, ← calls] at made
    rw [← settles, ← calls]
    exact .joined (p := r.listing accepted) outcomes _ working ready going made
  | again cleanup done => exact ⟨accepted, .again cleanup done⟩
  | uncleaned scene cleanup first unjoined =>
    obtain ⟨accepted', made⟩ := joins unjoined accepted
    exact ⟨accepted', .uncleaned _ cleanup first made⟩
  | cleaned outcomes scene cleanup first joined =>
    obtain ⟨accepted', made⟩ := joins joined accepted
    have same := Commanded.cleaned (p := r.listing accepted) outcomes _ cleanup first made
    exact ⟨accepted', same⟩

/-- Lets some `beats` go on beside a run until its own next step. The beats after that are its
schedule from then on, so they go on during that step. -/
def Stage.heed (beats : List Beat) (s : Stage) : Stage :=
  Stage.idle (Beat.slots s.controls beats) s

/-- What goes on beside a session to which signals come, at each hook of its `Driver` and, from the
first step of the session on, during the step that follows the hook. -/
structure Watch where
  /-- What goes on in each `State`, before the next phase begins and while its calls are joined. -/
  between : State → List Beat := fun _ => []
  /-- What goes on once setup is over, and while the window is open. -/
  opens : List Beat := []
  /-- What goes on once the window is to end, until the clock on the wall is read. -/
  ends : List Beat := []
  /-- What goes on from then on until the window is recorded. -/
  records : List Beat := []

/-- The driver of a session during a `watch`: each hook lets its beats go on by `Stage.heed`. -/
def Watch.driver (watch : Watch) : Driver World :=
  .on platform
    { between := fun now => Stage.heed (watch.between now)
      opens := Stage.heed watch.opens
      ends := Stage.heed watch.ends
      records := Stage.heed watch.records }

def Cue.command? : Cue → Option Command
  | .command c _ => some c
  | _ => none

/-- Among `cues` the window does not end, and just these `commands` are asked for, in this order. -/
structure Passes (cues : List Cue) (commands : List Command) : Prop where
  going : .windowOver ∉ cues
  asked : cues.filterMap Cue.command? = commands

namespace Passes

variable {cues cues' : List Cue} {commands commands' : List Command}

theorem nil : Passes [] [] := ⟨List.not_mem_nil, rfl⟩

theorem append (first : Passes cues commands) (rest : Passes cues' commands') :
    Passes (cues ++ cues') (commands ++ commands') where
  going ends := (List.mem_append.1 ends).elim first.going rest.going
  asked := by rw [List.filterMap_append, first.asked, rest.asked]

theorem cons {x : Cue} (going : x ≠ .windowOver) (silent : x.command? = none)
    (rest : Passes cues commands) : Passes (x :: cues) commands where
  going ends := (List.mem_cons.1 ends).elim (fun same => going same.symm) rest.going
  asked := by rw [List.filterMap_cons_none silent, rest.asked]

end Passes

/-- The run `p` is that of the attendance `a`, except for its schedule `slots` and for what is
listed as let in, which a session that records its own window does not list. Both can be asked for
something. -/
structure Shadows (a : Attendance) (slots : List Slot) (p : Run) : Prop where
  free : a.run.isFree = true
  same : ∃ accepted, p = (a.run.listing accepted).updateScene fun s => s.stand .free slots

namespace Shadows

variable {a : Attendance} {slots : List Slot} {p : Run}

theorem meets (h : Shadows a slots p) : Meets p a.run := by
  obtain ⟨accepted, rfl⟩ := h.same
  exact ⟨rfl, rfl, rfl, rfl, rfl, rfl⟩

theorem controls (h : Shadows a slots p) : p.scene.controls = a.run.scene.controls := by
  obtain ⟨accepted, rfl⟩ := h.same
  rfl

/-- A run that can be asked for something shadows the attendance in which nothing has happened
yet. -/
theorem refl {r : Run} (free : r.isFree = true) : Shadows { run := r } r.world.slots r := by
  refine ⟨free, r.world.accepted, ?_⟩
  exact (Run.stand_self free).symm

/-- A move goes on beside both, if the cue `x` is that move under the switches of the attendance. -/
theorem move (h : Shadows a slots p) {x : Cue} {m : Move}
    (moves : x.act a.run.scene.controls = .beside m) :
    Shadows (a.cue x) slots (p.updateScene fun s => s.move m) := by
  have moved : (a.cue x).run = a.run.updateScene fun s => s.move m := by
    rw [Attendance.cue, moves]
    rfl
  obtain ⟨accepted, rfl⟩ := h.same
  obtain ⟨accepted', listed⟩ := Stage.exists_move_listing a.run.scene accepted m
  refine ⟨?_, accepted', ?_⟩
  · rw [moved, Run.isFree, (rests_move a.run m).standing]
    exact h.free
  · rw [moved]
    simp only [Run.updateScene, Run.listing, Stage.move_stand, listed]

/-- Beats go on beside both until the next step of the run; what is left of them is a schedule made
of beats again. -/
theorem heed (h : Shadows a slots p) (beats : List Beat) :
    ∃ cues rest, Passes cues [] ∧
      Shadows (cues.foldl Attendance.cue a)
        (Beat.slots (cues.foldl Attendance.cue a).run.scene.controls rest)
        (p.updateScene (Stage.heed beats)) := by
  induction beats generalizing a p with
  | nil =>
    obtain ⟨accepted, rfl⟩ := h.same
    exact ⟨[], [], .nil, h.free, accepted, rfl⟩
  | cons beat beats ih =>
    cases beat with
    | run =>
      obtain ⟨accepted, rfl⟩ := h.same
      exact ⟨[], beats, .nil, h.free, accepted, rfl⟩
    | beside m quiet =>
      obtain ⟨cues, rest, passes, later⟩ := ih (h.move (x := .beside m quiet) rfl)
      refine ⟨.beside m quiet :: cues, rest, passes.cons (by simp) rfl, ?_⟩
      have goes : p.updateScene (Stage.heed (.beside m quiet :: beats)) =
          (p.updateScene fun s => s.move m).updateScene (Stage.heed beats) := by
        simp only [Run.updateScene, Stage.heed, Beat.slots, Stage.idle,
          Stage.controls_move_quiet p.scene quiet]
      rw [goes]
      exact later
    | signal =>
      -- What a signal throws depends on the switches, which are the same in both runs.
      have signals : (Cue.signal).act a.run.scene.controls =
          .beside (signalMove p.scene.controls) := by
        rw [h.controls]
        rfl
      obtain ⟨cues, rest, passes, later⟩ := ih (h.move signals)
      refine ⟨.signal :: cues, rest, passes.cons (by simp) rfl, ?_⟩
      have goes : p.updateScene (Stage.heed (.signal :: beats)) =
          (p.updateScene fun s => s.move (signalMove p.scene.controls)).updateScene
            (Stage.heed beats) := by
        simp only [Run.updateScene, Stage.heed, Beat.slots, Stage.idle,
          Stage.controls_move_signal p.scene]
      rw [goes]
      exact later

end Shadows

/-- The run `p` shadows the attendance `a` between two steps, with no schedule that would have to be
made of beats. -/
def Rested (a : Attendance) (p : Run) : Prop := ∃ slots, Shadows a slots p

/-- The run `p` shadows the attendance `a`, and its schedule is made of beats, as a command needs
it. -/
def Watched (a : Attendance) (p : Run) : Prop :=
  ∃ beats, Shadows a (Beat.slots a.run.scene.controls beats) p

theorem Watched.rested {a : Attendance} {p : Run} (h : Watched a p) : Rested a p :=
  h.elim fun _ shadows => ⟨_, shadows⟩

/-- From wherever `P` holds an `action` that returns leads to where `Q` holds, and the attendance
goes there by cues among which just these `commands` are asked for. Each step of a session has one
such lemma. -/
def Plays {α : Type} (P : Attendance → Run → Prop) (commands : List Command)
    (action : Conduct World α) (Q : α → Attendance → Run → Prop) : Prop :=
  ∀ a p x q, P a p → p.perform action = (.ok x, q) →
    ∃ cues, Passes cues commands ∧ Q x (cues.foldl Attendance.cue a) q

section Plays

variable {α β : Type} {P : Attendance → Run → Prop} {commands commands' : List Command}

/-- One action after the other: the `commands` that are asked for add up. -/
theorem Plays.bind {x : Conduct World α} {Q : α → Attendance → Run → Prop} {f : α → Conduct World β}
    {R : β → Attendance → Run → Prop} (first : Plays P commands x Q)
    (rest : ∀ b, Plays (Q b) commands' (f b) R) : Plays P (commands ++ commands') (x >>= f) R := by
  intro a p c q start performed
  obtain ⟨b, o, ran, went⟩ := Progress.perform_bind_eq_ok.1 performed
  obtain ⟨cues, passes, there⟩ := first a p b o start ran
  obtain ⟨cues', passes', reached⟩ := rest b _ o c q there went
  exact ⟨cues ++ cues', passes.append passes', by rwa [List.foldl_append]⟩

theorem Plays.after {x : Conduct World α} {Q : α → Attendance → Run → Prop}
    {f : α → Conduct World β} {R : β → Attendance → Run → Prop} (first : Plays P [] x Q)
    (rest : ∀ b, Plays (Q b) commands (f b) R) : Plays P commands (x >>= f) R :=
  first.bind rest

theorem Plays.asking {x : Conduct World α} {Q : α → Attendance → Run → Prop}
    {f : α → Conduct World β} {R : β → Attendance → Run → Prop} {c : Command}
    (first : Plays P [c] x Q) (rest : ∀ b, Plays (Q b) commands (f b) R) :
    Plays P (c :: commands) (x >>= f) R :=
  first.bind rest

theorem plays_heed (beats : List Beat) :
    Plays Rested [] (Conduct.updateScene (Stage.heed beats)) fun _ => Watched := by
  rintro a p _ _ ⟨slots, h⟩ ⟨⟩
  obtain ⟨cues, rest, passes, later⟩ := h.heed beats
  exact ⟨cues, passes, rest, later⟩

/-- Beats go on at a hook, and what is left of them is forgotten, as before a step that takes no
schedule. -/
theorem plays_heed_rested (beats : List Beat) :
    Plays Rested [] (Conduct.updateScene (Stage.heed beats)) fun _ => Rested := by
  intro a p x q h performed
  obtain ⟨cues, passes, watched⟩ := plays_heed beats a p x q h performed
  exact ⟨cues, passes, watched.rested⟩

/-- A command is a cue, whose beats are what is left of those at the hook before it. -/
theorem plays_conduct (c : Command) :
    Plays Watched [c] (c.conduct platform) fun _ => Rested := by
  rintro a p ⟨⟩ q ⟨beats, h⟩ performed
  obtain ⟨accepted, rfl⟩ := h.same
  let slots := Beat.slots a.run.scene.controls beats
  obtain ⟨accepted', same⟩ :=
    exists_conduct_listing (a.run.updateScene fun s => s.stand .free slots) accepted c
  rcases asks : a.run.ask c slots with ⟨answer, r⟩
  rw [show (a.run.updateScene fun s => s.stand .free slots).perform (c.conduct platform) =
    (answer, r) from asks] at same
  -- Given the schedule before or after the list, it is the same run.
  obtain ⟨rfl, rfl⟩ := Prod.mk.inj (same.symm.trans performed)
  have free : r.isFree = true := (asked_of_ask asks).isFree_of_ok rfl
  have cued : (a.cue (.command c beats)).run = r :=
    (Run.act_command h.free c slots).trans (congrArg Prod.snd asks)
  refine ⟨[.command c beats], ⟨by simp, rfl⟩, r.world.slots, ?_, accepted', ?_⟩
  · rw [List.foldl_cons, List.foldl_nil, cued]
    exact free
  · rw [List.foldl_cons, List.foldl_nil, cued]
    exact (Run.stand_self (r := r.listing accepted') free).symm

theorem plays_observe (request : WindowRequest) :
    Plays Watched [] (Conduct.observe platform request) fun _ => Rested := by
  rintro a p opened q ⟨beats, h⟩ performed
  have schedule : p.scene.inner.slots = Beat.slots p.scene.controls beats := by
    rw [h.controls]
    obtain ⟨accepted, rfl⟩ := h.same
    rfl
  cases cancelled : p.orchestrator.cancelled with
  | true =>
    -- A run that is cancelled does not wait for its window.
    obtain rfl : p = q := by
      simpa [Conduct.observe, Progress.perform_bind, cancelled, Except.map]
        using congrArg Prod.snd performed
    exact ⟨[], .nil, _, h⟩
  | false =>
    -- While it waits, the beats that stand in the schedule go on, up to the next step.
    have waited : p.updateScene (platform.awaitWindow request) = q := by
      simpa [Run.updateScene, Conduct.observe, Progress.perform_bind, cancelled, Except.map]
        using congrArg Prod.snd performed
    have heeded : p.updateScene (platform.awaitWindow request) =
        p.updateScene (Stage.heed beats) := by
      change { p with scene := Stage.idle p.scene.inner.slots p.scene } = _
      rw [schedule]
      rfl
    obtain ⟨cues, rest, passes, later⟩ := h.heed beats
    rw [← heeded, waited] at later
    exact ⟨cues, passes, _, later⟩

/-- The interval of the window is recorded as others could record it, by `Move.record`. -/
theorem plays_recordInterval (i : Interval) :
    Plays Rested [] (Session.recordInterval i) fun _ => Rested := by
  rintro a p _ _ ⟨slots, h⟩ ⟨⟩
  have later := h.move (x := .beside (.record i) trivial) rfl
  obtain ⟨accepted, same⟩ := later.same
  refine ⟨[.beside (.record i) trivial], Passes.nil.cons (by simp) rfl, slots, later.free,
    p.world.accepted, ?_⟩
  -- Only the list of what others recorded tells the difference.
  have recorded : { p with scene :=
        { p.scene with recorder := (p.scene.recorder.record i).2 } } =
      (p.updateScene fun s => s.move (.record i)).listing p.world.accepted := by
    cases closed : p.scene.recorder.closed <;>
      simp [Run.updateScene, Run.listing, Stage.listing, Stage.move, Stage.updateWorld,
        Recorder.record, closed] <;> rfl
  exact recorded.trans (congrArg (Run.listing · p.world.accepted) same)

theorem plays_intoReport :
    Plays Rested [] Conduct.intoReport fun report a q =>
      report = q.orchestrator.report ∧ Meets q a.run := by
  rintro a p _ _ ⟨slots, h⟩ ⟨⟩
  have meets := h.meets
  exact ⟨[], .nil, rfl, meets.orchestrator, meets.scene.origin, meets.scene.clock,
    meets.scene.controls, meets.scene.started, meets.scene.recorder⟩

end Plays

end Schedule

open Schedule (Watch Attendance Cue Plays Rested Watched Passes Meets World Run plays_heed
  plays_heed_rested plays_conduct)

namespace Session

variable (s : Session) (watch : Watch) (length : Option Duration)

/-- The steps of the session `s` until its window is to end, with the hooks of `d` between them. -/
def openBy (d : Driver World) : Conduct World Timestamp := do
  d.setUp s.inputs.access
  Conduct.observe d.platform (.span length)

/-- What ties the session `s` during a `watch`, which has taken the run `r` to the run `q`, to an
attendance of `r`: the cues `before` its window is to end, and those `after`. -/
structure Attends (r q : Run) (before after : List Cue) : Prop where
  /-- By the first cues the attendance comes to where the session ends its window. -/
  opened : ∃ opened o, r.perform (s.openBy length watch.driver) = (.ok opened, o) ∧
    Meets o (Attendance.of r before).run
  /-- There the window is over, and by the other cues the attendance comes to where the session
  does. -/
  ended : Meets q (Attendance.of r (before ++ .windowOver :: after)).run
  /-- The window is over only once: among the cues before that it is not, and setup is all that is
  asked for. -/
  before : Passes before [.setup s.inputs.access]
  /-- From then on all other phases are asked for, in the order of `RunInputs.commands`. -/
  after : ∃ window, Passes after (s.inputs.commands window).tail

theorem plays_openBy :
    Plays Rested [.setup s.inputs.access] (s.openBy length watch.driver) fun _ => Rested := by
  have sets : Plays Rested [.setup s.inputs.access] (watch.driver.setUp s.inputs.access)
      fun _ => Watched := by
    refine (plays_heed (watch.between .pending)).after fun _ => ?_
    refine (plays_conduct (.setup s.inputs.access)).asking fun _ => ?_
    exact plays_heed watch.opens
  exact sets.asking fun _ => Schedule.plays_observe (.span length)

theorem plays_finishBy (window : Window) :
    Plays Rested (s.inputs.commands window).tail (s.finishBy watch.driver window) fun report a q =>
      report = q.orchestrator.report ∧ Meets q a.run := by
  have collects : Plays Rested [.collect s.inputs.storageDir window]
      (s.collectBy watch.driver window) fun _ => Rested := by
    refine (plays_heed_rested watch.records).after fun _ => ?_
    refine (Schedule.plays_recordInterval window.interval).after fun _ => ?_
    refine (plays_heed (watch.between .collecting)).after fun _ => ?_
    exact plays_conduct (.collect s.inputs.storageDir window)
  refine collects.asking fun _ => ?_
  refine (plays_heed (watch.between .collected)).after fun _ => ?_
  refine (plays_conduct (.construct s.inputs.resources window)).asking fun _ => ?_
  refine (plays_heed (watch.between .constructed)).after fun _ => ?_
  refine (plays_conduct .evaluate).asking fun _ => ?_
  refine (plays_heed (watch.between .evaluated)).after fun _ => ?_
  refine (plays_conduct (.store s.inputs.storageDir s.inputs.suffix s.inputs.resources)).asking
    fun _ => ?_
  refine (plays_heed (watch.between .persisted)).after fun _ => ?_
  refine (plays_conduct .cleanup).asking fun _ => ?_
  refine (plays_heed_rested (watch.between .cleanedUp)).after fun _ => ?_
  exact Schedule.plays_intoReport

/-- A session that makes its report is an attendance, whose `windowOver` comes just where the
session ends its window. The report is that of the attendance. -/
theorem exists_attendance {r q : Run} {report : Report} (free : r.isFree = true)
    (completed : r.perform (s.reportBy watch.driver length) = (.ok report, q)) :
    report = q.orchestrator.report ∧ ∃ before after, s.Attends watch length r q before after := by
  obtain ⟨window, closed, ran, finished⟩ := Progress.perform_bind_eq_ok.1 completed
  obtain ⟨⟨⟩, o₁, sets, ran⟩ := Progress.perform_bind_eq_ok.1 ran
  obtain ⟨opened, o, observed, ran⟩ := Progress.perform_bind_eq_ok.1 ran
  obtain ⟨⟨⟩, o₂, ended, ran⟩ := Progress.perform_bind_eq_ok.1 ran
  obtain ⟨⟨⟩, o₃, heeded, read⟩ := Progress.perform_bind_eq_ok.1 ran
  cases ended
  cases read
  have opens : r.perform (s.openBy length watch.driver) = (.ok opened, o) :=
    Progress.perform_bind_eq_ok.2 ⟨(), o₁, sets, observed⟩
  obtain ⟨before, early, slots, shadows⟩ := s.plays_openBy watch length { run := r } r opened o
    ⟨_, .refl free⟩ opens
  -- The session ends its window, which is the one cue of this kind.
  have ends := shadows.move (x := .windowOver) rfl
  obtain ⟨cues, passes, rested⟩ := Schedule.plays_heed_rested watch.ends _ _ _ _ ⟨_, ends⟩ heeded
  obtain ⟨cues', passes', same, meets⟩ :=
    s.plays_finishBy watch _ _ _ report q rested finished
  refine ⟨same, before, cues ++ cues', ⟨opened, o, opens, shadows.meets⟩, ?_, early, _,
    passes.append passes'⟩
  rw [Attendance.of, List.foldl_append, List.foldl_cons, List.foldl_append]
  exact meets

end Session

namespace Schedule

/-- What is certain of an attendance `a` of some `observers`: of a run whose switches only signals
and the end of the window throw. -/
structure Attended (observers : List Registration) (a : Attendance) : Prop where
  /-- A report is marked as cancelled only if some signal came after the window was to end. -/
  cancelled : a.run.orchestrator.report.cancelled = true →
    ∃ before rest, a.history = before ++ .signal :: rest ∧
      (({} : Controls).after before).windowEnded = true
  /-- If no signal came after the window was to end, the run is not cancelled and no call was given
  up because of a cancellation, and as soon as the run can be asked for something, every observer
  was called in all phases that were asked for in their order. -/
  going : (∀ before rest, a.history = before ++ .signal :: rest →
      (({} : Controls).after before).windowEnded = false) →
    a.run.isCancelled = false ∧ a.run.world.Unabandoned ∧
      (a.run.isFree = true → ∀ i < observers.length, a.run.world.callsOn i =
        let due := Due.ofPhases (Run.asked a.acts)
        Phase.working.take due.count ++ if due.ended ∧ 1 ≤ due.count then [.cleanup] else [])

/-- The escalation of signals, in three parts: the `Ladder` of switches, whoever else throws them
and whenever; what is `Attended` in every run whose switches only signals and the end of the window
throw; and that every session is such a run, in which the window is over where the session ends it
(`Session.Attends`). -/
theorem signal_escalation :
    (∀ (c : Controls) (events : List Controls.Event), c.Ladder events) ∧
    (∀ (runId : String) (registry : Registry) (limits : Limits) (origin : Nat) (cues : List Cue),
      Attended registry.entries (.of (Run.new runId registry limits origin) cues)) ∧
    ∀ (runId : String) (registry : Registry) (limits : Limits) (origin : Nat) (s : Session)
      (watch : Watch) (length : Option Duration) (report : Report) (q : Run),
      (Run.new runId registry limits origin).perform (s.reportBy watch.driver length) =
        (.ok report, q) →
      report = q.orchestrator.report ∧
        ∃ before after,
          s.Attends watch length (Run.new runId registry limits origin) q before after := by
  refine ⟨Controls.ladder, fun runId registry limits origin cues => ?_,
    fun runId registry limits origin s watch length report q completed =>
      s.exists_attendance watch length rfl completed⟩
  have h := heeding_of runId registry limits origin cues
  generalize Attendance.of (Run.new runId registry limits origin) cues = a at h
  have signal (cancelled : a.run.scene.controls.runCancelled = true) :=
    Controls.exists_signal_of_cancelled h.alone (h.controls ▸ cancelled)
  refine ⟨fun cancelled => signal (h.heeds cancelled), fun early => ?_⟩
  -- When no signal comes after the window was ended, the run is not cancelled, and sees nothing
  -- of a cancellation.
  have going : a.run.scene.controls.runCancelled = false := by
    refine Bool.eq_false_iff.2 fun cancelled => ?_
    obtain ⟨before, rest, same, ended⟩ := signal cancelled
    exact absurd ((early before rest same).symm.trans ended) Bool.false_ne_true
  have unseen : a.run.orchestrator.cancelled = false := by
    refine Bool.eq_false_iff.2 fun cancelled => ?_
    exact absurd (going.symm.trans (h.heeds cancelled)) Bool.false_ne_true
  refine ⟨Bool.or_eq_false_iff.2 ⟨unseen, going⟩, h.unabandoned going, fun free i hi => ?_⟩
  obtain ⟨made, traced⟩ := traced_after runId registry limits origin a.acts
  rw [← h.run_eq] at traced
  rw [callsOn_of_trace traced.calls hi, traced.level free unseen]

/-- A session whose window stays open until it is ended, for the one observer of `watchedRun`. -/
def watchedSession : Session where
  windowLength := none
  inputs := { access := ⟨"", none, none, none, none, false⟩, storageDir := "" }

def watchedRun : Run :=
  .new "" singleRegistry ⟨.ofSecs 60, .ofSecs 60, .ofSecs 5⟩ 0

/-- A signal comes in the midst of setup of `watchedSession`, and another one once storage is
over. -/
def twoSignals : Watch where
  between now :=
    let served (round : Nat) : List Beat :=
      [.beside (.enter round 0) trivial, .beside (.finish round 0 (.returned {})) trivial,
       .run, .run, .run]
    match now with
    | .pending => .run :: .signal :: served 0
    | .collecting => .run :: served 1
    | .collected => .run :: served 2
    | .constructed => .run :: served 3
    | .evaluated => .run :: served 4
    | .persisted => .signal :: .run :: served 5
    | .cleanedUp => []

/-- The first of the `twoSignals` ends the window and leaves all phases running. The second one
cancels the run, which is too late for a phase to be skipped. -/
theorem signal_escalation_of_session :
    ∃ q before after, watchedSession.Attends twoSignals none watchedRun q before after ∧
      (Attendance.of watchedRun (before ++ .windowOver :: after)).run.orchestrator.cancelled =
        false ∧ q.scene.controls = ⟨true, true⟩ ∧ q.world.callsOn 0 = Phase.all := by
  rcases ran : watchedRun.perform (watchedSession.reportBy twoSignals.driver none)
    with ⟨halt | report, q⟩
  · -- The session makes its report, so it comes to no error.
    have returned : (watchedRun.perform
        (watchedSession.reportBy twoSignals.driver none)).1.toOption.isSome = true := by
      decide +kernel
    rw [ran] at returned
    cases returned
  · obtain ⟨-, before, after, attends⟩ := signal_escalation.2.2 _ _ _ _ _ _ _ _ _ ran
    obtain rfl : (watchedRun.perform (watchedSession.reportBy twoSignals.driver none)).2 = q :=
      congrArg Prod.snd ran
    refine ⟨_, before, after, attends, ?_, ?_, ?_⟩
    · have same : (Attendance.of watchedRun _).run.orchestrator = _ := attends.ended.orchestrator
      rw [same]
      decide +kernel
    · decide +kernel
    · decide +kernel

end Schedule
end Vigil
