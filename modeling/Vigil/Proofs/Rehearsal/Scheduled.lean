import Vigil.Proofs.Rehearsal.Beside
import Vigil.Proofs.Schedule.Follow

/-!
# A rehearsal follows a schedule

Whatever a rehearsal makes of the calls of a request, some schedule makes the same of them: what
threads and errands do goes on beside the join, and a call under the schedule begins and ends when
the join of the rehearsal takes its end over.
-/

namespace Vigil.Rehearsal

open Schedule

namespace Stage

theorem ids_spawn (request : JoinRequest) (s : Stage) :
    (s.spawn request).1 = (List.range request.targets.length).map (s.inner.nextId + ·) := by
  apply List.ext_getElem <;> simp [spawn]

section Join

variable {request : JoinRequest} {round first : Nat} {s : Stage} {t : Schedule.Stage} {j : Join}

/-- What a look makes of a join some slots make of it, if they do so from where the look goes on. -/
theorem attains_look {goOn : Join → Stage → Option (List CallOutcome) × Stage}
    (agree : Agree s t) (follows : Follows request.targets.length round j t)
    (goesOn : ∀ j' s' t', Agree s' t' → Follows request.targets.length round j' t' →
      Attains request round (some j') t' (goOn (j'.shift first) s')) :
    Attains request round (some j) t
      (s.look (request.call.phase != .cleanup) goOn (j.shift first)) := by
  have heeds : (request.call.phase != .cleanup && s.controls.runCancelled) =
      (request.call.phase != .cleanup && t.controls.runCancelled) := by
    rw [agree.controls]
  unfold look
  rw [Join.poll_shift, ← agree.origin, ← agree.clock]
  cases polled : j.poll t.origin t.clock
      (request.call.phase != .cleanup && s.controls.runCancelled)
      (fun i => s.inner.ending? (first + i)) with
  | none => exact follows.turns_overflow heeds polled s
  | some r =>
    obtain ⟨j₁, stops⟩ := r
    obtain ⟨t₁, leads, follows₁, same⟩ := follows.turns heeds polled
    -- Stopping the calls that were given up goes on beside the orchestrator.
    obtain ⟨t₂, leads', follows₂, agree₂⟩ := follows₁.beside (agree.trans same)
      (s.beside_stopAll (stops.map (first + ·)))
    refine .of_leads (leads.trans leads') ?_
    dsimp only [Option.map_some]
    split
    · next outcomes returns =>
      simp only [Join.outcomes?, Bool.and_eq_true, Option.ite_none_right_eq_some,
        Option.some.injEq] at returns
      obtain ⟨⟨done, -⟩, rfl⟩ := returns
      have still : Scene.Beside (s.stopAll (stops.map (first + ·)))
          (if (stops.map (first + ·)).isEmpty then s.stopAll (stops.map (first + ·))
            else (s.stopAll (stops.map (first + ·))).settle) := by
        split
        · exact .refl _
        · exact beside_settle _
      obtain ⟨t₃, leads, follows₃, agree₃⟩ := follows₂.beside agree₂ still
      exact .of_leads leads
        (follows₃.returns agree₃ (by simpa [Join.isDone, Join.shift] using done))
    · exact goesOn j₁ _ t₂ agree₂ follows₂

/-- What `playJoin` makes of a join some slots make of it, by induction on the number of looks. -/
theorem attains_playJoin (n : Nat) (agree : Agree s t)
    (follows : Follows request.targets.length round j t) :
    Attains request round (some j) t
      (playJoin (request.call.phase != .cleanup) n (j.shift first) s) := by
  induction n generalizing s j t with
  | zero => exact .nothing s
  | succ n ih =>
    obtain ⟨t₁, leads, follows₁, agree₁⟩ := follows.beside agree s.beside_settle
    refine .of_leads leads (attains_look agree₁ follows₁ fun j' s' t' agree' follows' => ?_)
    split
    · next jumps =>
      obtain ⟨t₂, leads, follows₂, agree₂⟩ :=
        follows'.beside agree' (beside_jump s' _ _ jumps)
      exact .of_leads leads (ih agree₂ follows₂)
    · exact .nothing s'

/-- What a rehearsal makes of the calls of `request` some slots make of them. -/
theorem attains_join (agree : Agree (s.spawn request).2 t)
    (fresh : ∀ i < request.targets.length, t.inner.task? round i = some {}) :
    Attains request round none t (s.join request) := by
  let cancelled := request.call.phase != .cleanup && t.controls.runCancelled
  have begins (j : Join) (starts : Join.start? t.origin request.limits t.clock cancelled
      (List.range request.targets.length) = some j) : Follows request.targets.length round j t :=
    .start starts fresh
  have shifted := Join.start?_shift s.inner.nextId t.origin t.clock cancelled request.limits
    (List.range request.targets.length)
  have turned : t.turn? request round none =
      (Join.start? t.origin request.limits t.clock cancelled
        (List.range request.targets.length)).map fun j => (j, none) := rfl
  have awaits (slots : List Slot) :=
    Schedule.Stage.await_turn request round slots t (j := none) (Option.bind_none _)
  rw [turned] at awaits
  -- How a join starts is of no matter. It stays hidden, so that no deadline is ever computed.
  obtain ⟨joins, unfolded⟩ : ∃ joins, join = joins := ⟨_, rfl⟩
  obtain ⟨start, same⟩ : ∃ start, Join.start? = start := ⟨_, rfl⟩
  rw [unfolded]
  delta join at unfolded
  rw [same] at begins shifted awaits unfolded
  subst unfolded
  dsimp only
  rw [ids_spawn, ← agree.origin, ← agree.clock, ← agree.controls, shifted]
  cases starts : start t.origin request.limits t.clock cancelled
      (List.range request.targets.length) with
  | none =>
    rw [starts] at awaits
    exact ⟨[.run], t.stand .panicked [], awaits [], nofun⟩
  | some j =>
    rw [starts] at awaits
    obtain ⟨slots, t', awaited, returned⟩ := attains_look agree (begins j starts)
      fun j' s' t' agree' (follows : Follows request.targets.length round j' t') =>
        (attains_playJoin stepLimit agree' follows : Attains request round (some j') t'
          (playJoin _ stepLimit (j'.shift s.inner.nextId) s'))
    exact ⟨.run :: slots, t', (awaits slots).trans awaited, returned⟩

end Join

end Stage

/-- A rehearsal follows a schedule, so that what is proved of all schedules holds of what is
rehearsed. -/
theorem scheduled_platform : Scheduled platform where
  join request s outcomes s' makes t agree := by
    let round := t.inner.rounds.length
    have fresh : ∀ i < request.targets.length,
        (t.spawn request).inner.task? round i = some {} := by
      intro i lt
      rw [Schedule.Stage.task?_spawn_new]
      simp [lt]
    have agree' : Agree (Rehearsal.Stage.spawn s request).2 (t.spawn request) :=
      ⟨agree.origin, agree.clock, agree.controls, agree.started, agree.recorder⟩
    have attains : Attains request round none (t.spawn request) (outcomes, s') := by
      rw [← show Rehearsal.Stage.join request s = (outcomes, s') from makes]
      exact Rehearsal.Stage.attains_join agree' fresh
    -- What the rehearsal did after making the calls is what these slots do.
    obtain ⟨slots, t', awaited, same⟩ := attains
    refine ⟨slots, t'.note round outcomes, ?_, fun returned => ?_⟩
    · have joined : Schedule.Stage.await request round slots none
          ((t.stand .free slots).spawn request) = (outcomes, t') := by
        rw [← awaited]
        exact Schedule.Stage.await_stand request round slots none .free slots (t.spawn request)
      exact congrArg (fun r => (r.1, r.2.note round r.1)) joined
    · have agrees := same returned
      exact ⟨agrees.origin, agrees.clock, agrees.controls, agrees.started, agrees.recorder⟩

end Vigil.Rehearsal
