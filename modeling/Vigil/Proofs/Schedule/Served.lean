import Vigil.Live
import Vigil.Proofs.Schedule.Join

/-!
# Every mix of endings can come about

Whatever the calls of a round may end with, there is a schedule by which they end so and the join
returns their outcomes. A live run, whose calls take no time, makes of a phase what such a schedule
makes of it.

The module introduces `ServedBy`, what has become of a scene once the calls of a round have ended.
-/

namespace Vigil.Schedule

/-- In the scene `s'` the calls of `round` from the position `start` on have ended with the given
`endings`, and nothing else has happened since `s`. -/
structure ServedBy (round start : Nat) (endings : List Ending) (s s' : Stage) : Prop where
  ending : ∀ i e, endings[i]? = some e → s'.inner.ending? round (start + i) = some e
  /-- The calls before that position are as they were. -/
  earlier : ∀ i < start, s'.inner.task? round i = s.inner.task? round i
  origin : s'.origin = s.origin
  /-- No time has passed. -/
  clock : s'.clock = s.clock
  /-- Nobody has cancelled the run. -/
  controls : s'.controls = s.controls

namespace Stage

/-- The calls of a round end one after the other, as `served` has it, before the join takes its
first turn. -/
theorem await_served (request : JoinRequest) {round : Nat} (endings : List Ending) (start : Nat)
    (slots : List Slot) (j : Option Join) (s : Stage)
    (fresh : ∀ i < endings.length, s.inner.task? round (start + i) = some {}) :
    ∃ s', ServedBy round start endings s s' ∧
      await request round
        (((endings.zipIdx start).flatMap fun e =>
          [.beside (.enter round e.2), .beside (.finish round e.2 e.1)]) ++ slots) j s =
        await request round slots j s' := by
  induction endings generalizing start s with
  | nil => exact ⟨s, ⟨nofun, fun _ _ => rfl, rfl, rfl, rfl⟩, rfl⟩
  | cons e endings ih =>
    let first := (s.move (.enter round start)).move (.finish round start e)
    have task : ∀ i, first.inner.task? round i =
        if i = start then some { status := .ended e } else s.inner.task? round i :=
      s.task?_enter_finish e (fresh 0 (Nat.succ_pos _))
    have fresh' : ∀ i < endings.length, first.inner.task? round (start + 1 + i) = some {} := by
      intro i hi
      rw [task, if_neg (by omega), Nat.add_assoc, Nat.add_comm 1]
      exact fresh (i + 1) (Nat.succ_lt_succ hi)
    obtain ⟨s', served, same⟩ := ih (start + 1) first fresh'
    refine ⟨s', ?_, same⟩
    exact
      { ending := fun i e' he => by
          cases i with
          | zero =>
            -- The first call has ended, and the later ones leave it as it is.
            obtain rfl : e = e' := by simpa using he
            rw [World.ending?, Nat.add_zero, served.earlier start (Nat.lt_succ_self _), task,
              if_pos rfl]
            rfl
          | succ i =>
            have rest := served.ending i e' (by simpa using he)
            rwa [Nat.add_assoc, Nat.add_comm 1] at rest
        earlier := fun i hi => by
          rw [served.earlier i (Nat.lt_succ_of_lt hi), task, if_neg (Nat.ne_of_lt hi)]
        origin := served.origin
        clock := served.clock
        controls := served.controls }

/-- When all calls that are awaited have ended, the loop takes over one after the other and returns
their outcomes. -/
theorem await_ended (request : JoinRequest) {round : Nat} (endings : List Ending) (start : Nat)
    (slots : List Slot) (j : Join) (s : Stage)
    (waiting : j.waiting = List.range' start endings.length) (kept : j.aborted = [])
    (ending : ∀ i e, endings[i]? = some e → s.inner.ending? round (start + i) = some e) :
    await request round (List.replicate endings.length .run ++ .run :: slots) (some j) s =
      (some (j.settled ++ endings.map Ending.outcome), s.stand .free slots) := by
  induction endings generalizing start j with
  | nil =>
    have returns : j.outcomes? (s.inner.isOver round) = some j.settled := by
      simp [Join.outcomes?, Join.isDone, waiting, kept]
    simp [await, returns]
  | cons e endings ih =>
    -- Each turn takes over one call, and the join does not return before the last one.
    have waits : (some j).bind (Join.outcomes? (s.inner.isOver round)) = none := by
      simp [Join.outcomes?, Join.isDone, waiting, List.range'_succ]
    have first : s.inner.ending? round start = some e := ending 0 e rfl
    have turned : s.turn? request round (some j) =
        some (j.takeOver e (List.range' (start + 1) endings.length), none) := by
      simp [turn?, Join.turn, waiting, List.range'_succ, first]
    have rest := ih (start + 1) (j.takeOver e (List.range' (start + 1) endings.length)) rfl kept
      fun i e' he => by
        rw [Nat.add_assoc, Nat.add_comm 1]
        exact ending (i + 1) e' he
    rw [List.length_cons, List.replicate_succ, List.cons_append,
      await_turn request round _ s waits, turned]
    change await request round _ (some (j.takeOver e _)) s = _
    rw [rest]
    simp [Join.takeOver]

/-- A join under the schedule `served` returns the outcomes of its `endings`, unless an instant has
no room. -/
theorem join_served (request : JoinRequest) (s : Stage) {endings : List Ending}
    (length : endings.length = request.targets.length) {slots : List Slot}
    (schedule : s.inner.slots = served s.inner.rounds.length endings ++ slots) :
    (s.join request).1 =
      if (s.turn? request s.inner.rounds.length none).isSome then
        some (endings.map Ending.outcome)
      else none := by
  have fresh : ∀ i < endings.length,
      (s.spawn request).inner.task? s.inner.rounds.length (0 + i) = some {} := by
    intro i hi
    rw [Nat.zero_add, task?_spawn_new]
    simp [← length, hi]
  -- First all calls end, while nobody looks; then the join goes through them.
  obtain ⟨s', ended, same⟩ := await_served request endings 0
    (List.replicate (endings.length + 2) .run ++ slots) none (s.spawn request) fresh
  have clock : s'.clock = s.clock := ended.clock
  have controls : s'.controls = s.controls := ended.controls
  have origin : s'.origin = s.origin := ended.origin
  have begins : s'.turn? request s.inner.rounds.length none =
      s.turn? request s.inner.rounds.length none := by
    simp only [turn?, origin, clock, controls]
  have joined : (s.join request).1 =
      (await request s.inner.rounds.length s.inner.slots none (s.spawn request)).1 := rfl
  rw [joined, schedule, served, List.append_assoc, same, List.replicate_succ, List.cons_append,
    await_turn request _ _ s' (Option.bind_none _), begins]
  cases first : s.turn? request s.inner.rounds.length none with
  | none => rfl
  | some turned =>
    unfold turn? at first
    obtain ⟨started, start, same⟩ := Option.map_eq_some_iff.1 first
    cases same
    obtain ⟨-, settled, waiting, kept⟩ := fields_of_start start
    rw [← length, List.range_eq_range'] at waiting
    have rest := await_ended request endings 0 slots started s' waiting kept ended.ending
    rw [settled, List.nil_append] at rest
    -- The first turn has been taken, and one is left for each call and one to return.
    have slots_eq : List.replicate (endings.length + 1) Slot.run ++ slots =
        List.replicate endings.length .run ++ .run :: slots := by
      rw [List.replicate_succ', List.append_assoc]
      rfl
    change (await request _ (List.replicate (endings.length + 1) .run ++ slots) (some started)
      s').1 = some (endings.map Ending.outcome)
    rw [slots_eq, rest]

/-- A join of a run that is not cancelled starts if there is room for its deadline. -/
theorem isSome_turn?_none (request : JoinRequest) (round : Nat) (s : Stage)
    (going : s.controls.runCancelled = false) :
    (s.turn? request round none).isSome =
      (later? s.origin s.clock request.limits.timeout).isSome := by
  unfold turn? Join.start?
  rw [going, Bool.and_false]
  cases later? s.origin s.clock request.limits.timeout with
  | none => rfl
  | some deadline => rfl

end Stage

/-- The calls of a live run end at once: there are `endings` such that `Live.State.callAll` yields
just their outcomes. -/
theorem exists_endings_of_callAll (call : Call) (live : Scene Live.State)
    (targets : List Registration) :
    ∃ endings : List Ending, endings.length = targets.length ∧
      (Live.callAll call live targets).1 = endings.map Ending.outcome ∧
      (Live.callAll call live targets).2.origin = live.origin ∧
      (Live.callAll call live targets).2.clock = live.clock := by
  induction targets generalizing live with
  | nil => exact ⟨[], rfl, rfl, rfl, rfl⟩
  | cons target targets ih =>
    rcases answered : live.inner.memory.answer live.files call with ⟨ending, memory, files⟩
    obtain ⟨endings, length, same, times⟩ :=
      ih { live with files, inner := { live.inner with memory } }
    refine ⟨ending :: endings, by rw [List.length_cons, List.length_cons, length], ?_, ?_⟩
    · simp only [Live.callAll, answered, List.map_cons]
      rw [same]
    · simp only [Live.callAll, answered]
      exact times

/-- A live run makes of the calls of a phase what the schedule `served` of some endings makes of
them. -/
theorem exists_schedule_of_live (request : JoinRequest) (live : Scene Live.State) (s : Stage)
    (origin : s.origin = live.origin) (clock : s.clock = live.clock)
    (going : s.controls.runCancelled = false) :
    ∃ slots, ((s.stand .free slots).join request).1 = (Live.platform.join request live).1 := by
  obtain ⟨endings, length, same, host, unchanged⟩ :=
    exists_endings_of_callAll request.call live request.targets
  refine ⟨served s.inner.rounds.length endings, ?_⟩
  rw [Stage.join_served request _ length (List.append_nil _).symm,
    Stage.isSome_turn?_none request _ (s.stand .free _) going]
  let stands := s.stand .free (served s.inner.rounds.length endings)
  have origin : stands.origin = live.origin := origin
  have clock : stands.clock = live.clock := clock
  simp only [stands] at origin clock
  simp only [origin, clock, Live.platform, same, host, unchanged]

end Vigil.Schedule
