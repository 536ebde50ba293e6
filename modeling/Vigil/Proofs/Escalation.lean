import Vigil.Proofs.PhaseTrace

/-!
# Signals

Every signal finds the switches of a run somewhere and goes one step further. Whoever else throws a
switch and whenever, the steps of signals never go back, and each of the first two is taken once at
most. A join during which the run is not cancelled gives no call up because of a cancellation, and
the switches after a join are those that the signals have left which came meanwhile.

The module introduces:

* `Controls.Event`, what throws a switch, `Controls.after` and `Controls.steps`, the switches after
  some events and the steps that signals took, and `Controls.Ladder`, what is certain of them;
* `Schedule.Beat`, one step of a schedule in which signals may come, and `Beat.slots`, the schedule
  of some beats;
* `Schedule.Unseen`, the joins that have seen no cancellation, and `World.Unabandoned`, when no call
  was given up because of one.
-/

namespace Vigil

namespace ShutdownStep

/-- How far the step of a signal goes: to the end of the window, to the cancellation of the run, or
to a forced cleanup. -/
def rank : ShutdownStep → Nat
  | endWindow => 0
  | cancelRun => 1
  | forceCleanup => 2

/-- A signal takes the step `s`, and a later one the step `t`: the later step goes further, or both
force cleanup. -/
def Before (s t : ShutdownStep) : Prop := s.rank < t.rank ∨ s = .forceCleanup ∧ t = .forceCleanup

theorem Before.rank_le {s t : ShutdownStep} (h : s.Before t) : s.rank ≤ t.rank := by
  rcases h with lt | ⟨rfl, rfl⟩
  · exact Nat.le_of_lt lt
  · exact Nat.le_refl _

/-- Only `forceCleanup` is taken more than once when no step comes `Before` an earlier one. -/
theorem count_le_one {steps : List ShutdownStep} (h : steps.Pairwise Before) {s : ShutdownStep}
    (other : s ≠ .forceCleanup) : steps.count s ≤ 1 := by
  have alike : (List.replicate (steps.count s) s).Pairwise Before := by
    rw [← List.filter_beq]
    exact h.filter _
  rcases List.pairwise_replicate.1 alike with le | again | ⟨last, -⟩
  · exact le
  · exact absurd again (Nat.lt_irrefl _)
  · exact absurd last other

end ShutdownStep

namespace Controls

/-- Something that throws a switch: a signal, or someone who throws one of the two by other
means. -/
inductive Event where
  | signal
  /-- The window is over, or someone else ends it. -/
  | endWindow
  | cancelRun
  deriving DecidableEq

/-- The switches after an event. What a signal throws is up to `Controls.escalate`. -/
def step (c : Controls) : Event → Controls
  | .signal => c.escalate.2
  | .endWindow => c.endWindow
  | .cancelRun => c.cancelRun

def after (c : Controls) (events : List Event) : Controls := events.foldl step c

/-- The steps that the signals among `events` take, from the switches `c` on. -/
def steps : Controls → List Event → List ShutdownStep
  | _, [] => []
  | c, .signal :: events => c.escalate.1 :: steps c.escalate.2 events
  | c, e :: events => steps (c.step e) events

/-- The switches that are thrown in `c` are thrown in `d`: nothing ever takes one back. -/
structure Kept (c d : Controls) : Prop where
  windowEnded : c.windowEnded = true → d.windowEnded = true
  runCancelled : c.runCancelled = true → d.runCancelled = true

theorem Kept.refl (c : Controls) : Kept c c := ⟨id, id⟩

theorem Kept.trans {c d e : Controls} (first : Kept c d) (second : Kept d e) : Kept c e :=
  ⟨second.windowEnded ∘ first.windowEnded, second.runCancelled ∘ first.runCancelled⟩

@[simp]
theorem after_nil (c : Controls) : c.after [] = c := rfl

theorem after_append (c : Controls) (events events' : List Event) :
    c.after (events ++ events') = (c.after events).after events' := by
  simp [after]

theorem after_concat (c : Controls) (events : List Event) (e : Event) :
    c.after (events ++ [e]) = (c.after events).step e := by
  simp [after]

theorem escalate_cases (c : Controls) :
    (c.windowEnded = false ∧ c.escalate = (.endWindow, ⟨true, c.runCancelled⟩)) ∨
    (c = ⟨true, false⟩ ∧ c.escalate = (.cancelRun, ⟨true, true⟩)) ∨
    (c = ⟨true, true⟩ ∧ c.escalate = (.forceCleanup, c)) := by
  obtain ⟨w, r⟩ := c
  cases w <;> cases r <;> decide

theorem kept_step (c : Controls) (e : Event) : Kept c (c.step e) := by
  obtain ⟨w, r⟩ := c
  cases e <;> cases w <;> cases r <;> exact ⟨by decide, by decide⟩

theorem kept_after (c : Controls) (events : List Event) : Kept c (c.after events) := by
  induction events using List.reverseRecOn with
  | nil => exact .refl c
  | append_singleton events e ih =>
    rw [after_concat]
    exact ih.trans (kept_step _ e)

/-- Once a signal has come at `c`, later ones go further, unless it has forced cleanup. -/
theorem before_of_kept {c d : Controls} (kept : Kept c.escalate.2 d) :
    c.escalate.1.Before d.escalate.1 := by
  obtain ⟨w, r⟩ := c
  obtain ⟨w', r'⟩ := d
  obtain ⟨windowEnded, runCancelled⟩ := kept
  unfold ShutdownStep.Before
  cases w <;> cases r <;> cases w' <;> cases r' <;>
    first
      | decide
      | exact absurd (windowEnded rfl) (by decide)
      | exact absurd (runCancelled rfl) (by decide)

theorem exists_of_mem_steps {c : Controls} {events : List Event} {s : ShutdownStep}
    (h : s ∈ c.steps events) : ∃ d, Kept c d ∧ s = d.escalate.1 := by
  induction events generalizing c with
  | nil => cases h
  | cons e events ih =>
    have later (h : s ∈ (c.step e).steps events) : ∃ d, Kept c d ∧ s = d.escalate.1 := by
      obtain ⟨d, kept, same⟩ := ih h
      exact ⟨d, (kept_step c e).trans kept, same⟩
    cases e with
    | signal =>
      rcases List.mem_cons.1 h with rfl | h
      · exact ⟨c, .refl c, rfl⟩
      · exact later h
    | endWindow => exact later h
    | cancelRun => exact later h

/-- The steps of signals go further and further until they force cleanup, by induction on the
events. -/
theorem pairwise_steps (c : Controls) (events : List Event) :
    (c.steps events).Pairwise ShutdownStep.Before := by
  induction events generalizing c with
  | nil => exact .nil
  | cons e events ih =>
    cases e with
    | signal =>
      refine List.pairwise_cons.2 ⟨fun s later => ?_, ih _⟩
      obtain ⟨d, kept, rfl⟩ := exists_of_mem_steps later
      exact before_of_kept kept
    | endWindow => exact ih _
    | cancelRun => exact ih _

/-- If nobody else cancels the run, a signal does, and it finds that the window is to end. -/
theorem exists_signal_of_cancelled {events : List Event} (alone : .cancelRun ∉ events)
    (cancelled : (({} : Controls).after events).runCancelled = true) :
    ∃ before rest, events = before ++ .signal :: rest ∧
      (({} : Controls).after before).windowEnded = true := by
  induction events using List.reverseRecOn with
  | nil => cases cancelled
  | append_singleton events e ih =>
    have earlier (h : (({} : Controls).after events).runCancelled = true) :
        ∃ before rest, events ++ [e] = before ++ .signal :: rest ∧
          (({} : Controls).after before).windowEnded = true := by
      obtain ⟨before, rest, rfl, ended⟩ := ih (fun h => alone (List.mem_append_left _ h)) h
      exact ⟨before, rest ++ [e], by simp, ended⟩
    rw [after_concat] at cancelled
    cases e with
    | cancelRun => exact absurd (List.mem_append_right _ (List.mem_singleton_self _)) alone
    | endWindow => exact earlier cancelled
    | signal =>
      cases going : (({} : Controls).after events).runCancelled with
      | true => exact earlier going
      | false =>
        -- The last signal has cancelled the run, so it has found the first switch thrown.
        refine ⟨events, [], rfl, ?_⟩
        rcases escalate_cases (({} : Controls).after events) with
          ⟨-, ends⟩ | ⟨found, -⟩ | ⟨found, -⟩
        · rw [step, ends, going] at cancelled
          cases cancelled
        · rw [found]
        · rw [found]

/-- What is certain of the switches `c` when `events` come one after the other, in any order and
number. -/
structure Ladder (c : Controls) (events : List Event) : Prop where
  /-- A switch that is thrown stays thrown. -/
  kept : ∀ before rest, events = before ++ rest → Kept (c.after before) (c.after events)
  /-- The steps that signals take never go back: their `rank` does not fall. -/
  ordered : (c.steps events).Pairwise fun s t => s.rank ≤ t.rank
  /-- At most one signal ends the window. -/
  endWindow : (c.steps events).count .endWindow ≤ 1
  /-- At most one signal cancels the run. -/
  cancelRun : (c.steps events).count .cancelRun ≤ 1
  /-- A signal that ends the window leaves the other switch alone, one that cancels the run throws
  both, and only one that finds both thrown forces cleanup. -/
  signal : ∀ before rest, events = before ++ .signal :: rest →
    let found := c.after before
    let left := c.after (before ++ [.signal])
    (found.escalate.1 = .endWindow →
      found.windowEnded = false ∧ left = ⟨true, found.runCancelled⟩) ∧
    (found.escalate.1 = .cancelRun → found = ⟨true, false⟩ ∧ left = ⟨true, true⟩) ∧
    (found.escalate.1 = .forceCleanup → found = ⟨true, true⟩ ∧ left = found)

theorem ladder (c : Controls) (events : List Event) : Ladder c events where
  kept before rest same := by
    rw [same, after_append]
    exact kept_after _ rest
  ordered := (pairwise_steps c events).imp ShutdownStep.Before.rank_le
  endWindow := ShutdownStep.count_le_one (pairwise_steps c events) (by decide)
  cancelRun := ShutdownStep.count_le_one (pairwise_steps c events) (by decide)
  signal before rest same := by
    intro found left
    have leaves : left = found.escalate.2 := after_concat c before .signal
    rw [leaves]
    rcases escalate_cases found with ⟨going, took⟩ | ⟨same, took⟩ | ⟨same, took⟩
    · simp [took, going]
    · exact ⟨by simp [took], fun _ => ⟨same, by rw [took]⟩, by simp [took]⟩
    · exact ⟨by simp [took], by simp [took], fun _ => ⟨same, by rw [took]⟩⟩

end Controls

namespace Schedule

/-! ## Joins while signals come -/

/-- A move that throws no switch, and so one that may go on beside a run that only signals are to
cancel. -/
def Move.Quiet : Move → Prop
  | .endWindow => False
  | .cancelRun => False
  | _ => True

/-- The move that a signal is to a run beside which it comes, by the switches `c` that it finds. A
forced cleanup throws no switch, so beside a run it is no more than time that does not pass. -/
def signalMove (c : Controls) : Move :=
  match c.nextStep with
  | .endWindow => .endWindow
  | .cancelRun => .cancelRun
  | .forceCleanup => .elapse 0

/-- One step of a schedule in which signals may come: a step of the run, a quiet move, or a
signal. -/
inductive Beat where
  | run
  | beside (move : Move) (quiet : move.Quiet)
  | signal

namespace Beat

/-- The schedule that `beats` make, if the switches are at first as they are in `c`. The switch that
a signal throws depends on the signals before it. -/
def slots : Controls → List Beat → List Slot
  | _, [] => []
  | c, .run :: beats => .run :: slots c beats
  | c, .beside m _ :: beats => .beside m :: slots c beats
  | c, .signal :: beats => .beside (signalMove c) :: slots c.escalate.2 beats

def events : List Beat → List Controls.Event
  | [] => []
  | .signal :: beats => .signal :: events beats
  | _ :: beats => events beats

@[simp]
theorem length_slots (c : Controls) (beats : List Beat) :
    (slots c beats).length = beats.length := by
  induction beats generalizing c with
  | nil => rfl
  | cons beat beats ih =>
    cases beat with
    | run => exact congrArg (· + 1) (ih c)
    | beside m quiet => exact congrArg (· + 1) (ih c)
    | signal => exact congrArg (· + 1) (ih _)

end Beat

namespace Stage

theorem controls_move_quiet (t : Stage) {m : Move} (quiet : m.Quiet) :
    (t.move m).controls = t.controls := by
  cases m with
  | endWindow => exact quiet.elim
  | cancelRun => exact quiet.elim
  | record i =>
    obtain ⟨_, _, same⟩ := t.exists_move_record i
    rw [same]
  | _ => rfl

theorem controls_move_signal (t : Stage) :
    (t.move (signalMove t.controls)).controls = t.controls.escalate.2 := by
  obtain ⟨origin, clock, ⟨w, c⟩, recorder, started, files, emitted, inner⟩ := t
  cases w <;> cases c <;> rfl

@[simp]
theorem controls_abort (t : Stage) (round : Nat) (stop : Option Nat) :
    (t.abort round stop).controls = t.controls := by
  cases stop <;> rfl

/-- A join comes to its end, or to that of its schedule, after some of the beats. The signals among
these have thrown the switches, and the rest of the schedule is left. -/
theorem await_beats (request : JoinRequest) (round : Nat) (beats : List Beat) (j : Option Join)
    (t : Stage) :
    ∃ done rest, beats = done ++ rest ∧
      (await request round (Beat.slots t.controls beats) j t).2.controls =
        t.controls.after (Beat.events done) ∧
      (await request round (Beat.slots t.controls beats) j t).2.inner.slots.length =
        rest.length := by
  induction beats generalizing j t with
  | nil => exact ⟨[], [], rfl, rfl, rfl⟩
  | cons beat beats ih =>
    cases beat with
    | run =>
      simp only [Beat.slots, await]
      split
      · -- The join returns, and follows the schedule no further.
        exact ⟨[.run], beats, rfl, rfl, Beat.length_slots _ _⟩
      · split
        · exact ⟨[.run], beats, rfl, rfl, Beat.length_slots _ _⟩
        · next j' stop _ =>
          -- A turn throws no switch, so what is left goes on from the same ones.
          obtain ⟨done, rest, rfl, controls, left⟩ := ih (some j') (t.abort round stop)
          rw [controls_abort] at controls left
          exact ⟨.run :: done, rest, rfl, controls, left⟩
    | beside m quiet =>
      obtain ⟨done, rest, rfl, controls, left⟩ := ih j (t.move m)
      rw [controls_move_quiet t quiet] at controls left
      exact ⟨.beside m quiet :: done, rest, rfl, controls, left⟩
    | signal =>
      obtain ⟨done, rest, rfl, controls, left⟩ := ih j (t.move (signalMove t.controls))
      rw [controls_move_signal] at controls left
      exact ⟨.signal :: done, rest, rfl, controls, left⟩

theorem controls_join (request : JoinRequest) (t : Stage) {beats : List Beat}
    (schedule : t.inner.slots = Beat.slots t.controls beats) :
    (t.join request).2.controls = t.controls.after
      (Beat.events (beats.take (beats.length - (t.join request).2.inner.slots.length))) := by
  obtain ⟨done, rest, parts, controls, left⟩ :=
    await_beats request t.inner.rounds.length beats none (t.spawn request)
  have before : (t.spawn request).controls = t.controls := rfl
  rw [before, ← schedule] at controls left
  have remains : (t.join request).2.inner.slots.length = rest.length := left
  have taken : beats.take (beats.length - rest.length) = done := by
    rw [parts, List.length_append, Nat.add_sub_cancel, List.take_left]
  rw [remains, taken]
  exact controls

theorem runCancelled_await (request : JoinRequest) (round : Nat) (slots : List Slot)
    (j : Option Join) (t : Stage) (cancelled : t.controls.runCancelled = true) :
    (await request round slots j t).2.controls.runCancelled = true := by
  refine await_invariant (P := fun t => t.controls.runCancelled = true) (fun s m h => ?_)
    (fun _ _ _ h => h) request round slots j cancelled
  cases m with
  | cancelRun => rfl
  | record i =>
    obtain ⟨_, _, same⟩ := s.exists_move_record i
    rw [same]
    exact h
  | _ => exact h

end Stage

/-- A join that has seen no cancellation has given no call up because of one: the invariant behind
`unabandoned_await`. -/
structure Unseen (j : Join) : Prop where
  going : j.cancelSeen = false
  settled : CallOutcome.abandoned ∉ j.settled

namespace Unseen

variable {j j' : Join}

theorem turn (h : Unseen j) {origin now : Nat} {ending? : Nat → Option Ending} {stop : Option Nat}
    (turned : j.turn origin now false ending? = some (j', stop)) : Unseen j' := by
  cases Join.turned_of_turn turned with
  | done => exact h
  | @ended _ _ e =>
    refine ⟨h.going, ?_⟩
    cases e <;> simpa [Join.takeOver, Ending.outcome] using h.settled
  | late =>
    refine ⟨h.going, ?_⟩
    simpa [Join.giveUp, Join.stopped, h.going] using h.settled
  | seen _ _ _ _ cancelled => cases cancelled
  | idle => exact h

theorem start {limits : JoinLimits} {origin now : Nat} {calls : List Nat}
    (started : Join.start? origin limits now false calls = some j) : Unseen j := by
  obtain ⟨deadline, -, same⟩ := Option.bind_eq_some_iff.1 started
  cases same
  exact ⟨rfl, List.not_mem_nil⟩

end Unseen

namespace Stage

/-- A join during which the run is not cancelled gives no call up because of a cancellation, and
neither does that of a cleanup, which no cancellation reaches. -/
theorem unabandoned_await (request : JoinRequest) (round : Nat) (slots : List Slot)
    (j : Option Join) (t : Stage) (unseen : ∀ i ∈ j, Unseen i)
    (going : request.call.phase ≠ .cleanup →
      (await request round slots j t).2.controls.runCancelled = false)
    {outcomes : List CallOutcome} (returned : (await request round slots j t).1 = some outcomes) :
    CallOutcome.abandoned ∉ outcomes := by
  induction slots generalizing j t with
  | nil => cases returned
  | cons slot slots ih =>
    -- A switch that is thrown stays thrown, so no cancellation is there to be seen now.
    have now : (request.call.phase != .cleanup && t.controls.runCancelled) = false := by
      by_cases cleanup : request.call.phase = .cleanup
      · simp [cleanup]
      · have going := going cleanup
        refine Bool.and_eq_false_iff.2 (.inr (Bool.eq_false_iff.2 fun cancelled => ?_))
        rw [runCancelled_await request round (slot :: slots) j t cancelled] at going
        cases going
    cases slot with
    | beside m => exact ih j (t.move m) unseen going returned
    | run =>
      unfold await at going returned
      split at returned
      · next os ready =>
        cases returned
        obtain ⟨i, rfl, done⟩ := Option.bind_eq_some_iff.1 ready
        simp only [Join.outcomes?, Option.ite_none_right_eq_some, Option.some.injEq] at done
        rw [← done.2]
        exact (unseen i rfl).settled
      · next pending =>
        split at returned
        · cases returned
        · next j' stop turned =>
          rw [pending, turned] at going
          refine ih (some j') (t.abort round stop) (fun i same => ?_) going returned
          cases same
          simp only [turn?, now] at turned
          cases j with
          | none =>
            obtain ⟨j'', started, same⟩ := Option.map_eq_some_iff.1 turned
            cases same
            exact .start started
          | some j => exact (unseen j rfl).turn turned

end Stage
def World.Unabandoned (w : World) : Prop :=
  ∀ e ∈ w.ledger, ∀ outcomes, e.2 = some outcomes → CallOutcome.abandoned ∉ outcomes

/-! ## Commands while signals come -/

section Ask

variable {request : JoinRequest} {s scene : Stage} {outcomes : Option (List CallOutcome)}

theorem controls_of_makes (joins : platform.Makes request s outcomes scene) {beats : List Beat}
    (schedule : s.inner.slots = Beat.slots s.controls beats) :
    scene.controls = s.controls.after
      (Beat.events (beats.take (beats.length - scene.inner.slots.length))) := by
  have joined := Stage.controls_join request s schedule
  rw [show s.join request = (outcomes, scene) from joins] at joined
  exact joined

theorem runCancelled_of_makes (joins : platform.Makes request s outcomes scene)
    (cancelled : s.controls.runCancelled = true) : scene.controls.runCancelled = true := by
  have waited := Stage.runCancelled_await request s.inner.rounds.length s.inner.slots none
    (s.spawn request) cancelled
  rw [← show (s.join request).2 = scene from congrArg Prod.snd joins]
  exact waited

theorem unabandoned_of_makes (before : s.inner.Unabandoned)
    (joins : platform.Makes request s outcomes scene)
    (going : request.call.phase ≠ .cleanup → scene.controls.runCancelled = false) :
    scene.inner.Unabandoned := by
  have joins : s.join request = (outcomes, scene) := joins
  have joined := Stage.joined_join request s
  rw [joins] at joined
  intro e he os same
  rw [joined.ledger, List.mem_append, List.mem_singleton] at he
  rcases he with he | rfl
  · exact before e he os same
  · refine Stage.unabandoned_await request s.inner.rounds.length s.inner.slots none
      (s.spawn request) nofun (fun heeded => ?_) ((congrArg Prod.fst joins).trans same)
    rw [← going heeded, ← show (s.join request).2 = scene from congrArg Prod.snd joins]
    rfl

variable {c : Command} {r q : Run} {answer : Except Halt Unit}

/-- The switches after a command are those that the signals have left that came while its schedule
was followed; what is left of the schedule tells which. -/
theorem controls_of_commanded (h : Commanded platform.Makes c r answer q) {beats : List Beat}
    (schedule : r.world.slots = Beat.slots r.scene.controls beats) :
    q.scene.controls = r.scene.controls.after
      (Beat.events (beats.take (beats.length - q.world.slots.length))) := by
  -- Without a join nothing of the schedule is followed.
  have idle (none : q.world.slots = r.world.slots) :
      r.scene.controls = r.scene.controls.after
        (Beat.events (beats.take (beats.length - q.world.slots.length))) := by
    rw [none, schedule, Beat.length_slots, Nat.sub_self]
    rfl
  have scheduled (phase : Phase) : (r.sceneOf phase).inner.slots =
      Beat.slots (r.sceneOf phase).controls beats := by
    rw [r.controls_sceneOf phase, r.inner_sceneOf phase]
    exact schedule
  cases h with
  | refused => exact idle rfl
  | again => exact idle rfl
  | skipped =>
    have begun (phase : Phase) : (r.begun phase).scene.controls = r.scene.controls := rfl
    rw [Command.controls_settle, begun]
    exact idle (by rw [Run.world, Command.inner_settle]; rfl)
  | unjoined scene _ _ _ joins =>
    rw [← r.controls_sceneOf c.phase]
    exact controls_of_makes joins (scheduled c.phase)
  | joined outcomes scene _ _ _ joins =>
    rw [← r.controls_sceneOf c.phase, Command.controls_settle, Run.world, Command.inner_settle]
    exact controls_of_makes joins (scheduled c.phase)
  | uncleaned scene _ _ joins => exact controls_of_makes joins schedule
  | cleaned outcomes scene _ _ joins => exact controls_of_makes joins schedule

theorem heeds_of_commanded (h : Commanded platform.Makes c r answer q)
    (heeds : r.orchestrator.cancelled = true → r.scene.controls.runCancelled = true)
    (cancelled : q.orchestrator.cancelled = true) : q.scene.controls.runCancelled = true := by
  cases h with
  | refused | again => exact heeds cancelled
  | skipped =>
    rw [Command.cancelled_settle] at cancelled
    rw [Command.controls_settle]
    rcases Bool.or_eq_true_iff.1 cancelled with earlier | now
    · exact heeds earlier
    · exact now
  | unjoined _ _ _ going =>
    -- The phase began, so the run was not cancelled.
    have stopped : r.isCancelled = true := cancelled
    rw [going] at stopped
    cases stopped
  | joined =>
    rw [Command.cancelled_settle] at cancelled
    rw [Command.controls_settle]
    exact cancelled
  | uncleaned _ _ _ joins => exact runCancelled_of_makes joins (heeds cancelled)
  | cleaned outcomes scene _ _ joins =>
    have kept : scene.controls.runCancelled = true := runCancelled_of_makes joins (heeds cancelled)
    exact kept

/-- A command during which the run is not cancelled gives no call up because of a cancellation. -/
theorem unabandoned_of_commanded (h : Commanded platform.Makes c r answer q)
    (before : r.world.Unabandoned) (going : q.scene.controls.runCancelled = false) :
    q.world.Unabandoned := by
  have start (phase : Phase) : (r.sceneOf phase).inner.Unabandoned := by
    rw [r.inner_sceneOf phase]
    exact before
  -- Each join that was made began with `before`, and ended while the run was going.
  cases h with
  | refused | again => exact before
  | skipped =>
    rw [Run.world, Command.inner_settle]
    exact before
  | unjoined _ _ _ _ joins => exact unabandoned_of_makes (start c.phase) joins fun _ => going
  | joined outcomes scene _ _ _ joins =>
    rw [Command.controls_settle] at going
    rw [Run.world, Command.inner_settle]
    have kept : scene.inner.Unabandoned := unabandoned_of_makes (start c.phase) joins fun _ => going
    exact kept
  | uncleaned _ _ _ joins => exact unabandoned_of_makes before joins fun _ => going
  | cleaned outcomes scene _ _ joins =>
    have kept : scene.inner.Unabandoned := unabandoned_of_makes before joins fun _ => going
    exact kept

end Ask

end Schedule
end Vigil
