import Vigil.Proofs.Custody
import Vigil.Proofs.Race.Basic

/-!
# The calls of one observer

As long as no call is stopped, the calls of an observer are served in the order in which they come:
the first one does the work, and no other one ever does. A call that has ended has passed the guard
after the work was done, and only the call that did it can have failed.

The module introduces `Site.Sound`, the invariant of the calls of one observer.
-/

namespace Vigil.Schedule

namespace Site

/-- What holds of a guard and of the calls that meet at it. Where these stand is what `calls` says,
by the numbers of their cleanups. -/
structure Sound (s : Site) (calls : Nat → Option Status) : Prop where
  /-- Nobody works once the work is done. -/
  idle : s.guard.done = true → s.guard.worker = none
  /-- The body has begun exactly if it is at work or done, and then once. -/
  begun : s.begun = if s.guard.done || s.guard.worker.isSome then 1 else 0
  worked : s.work.isSome = s.guard.done
  worker : ∀ k, s.guard.worker = some k → calls k = some .running
  /-- The call that has done the work ends as the body did. -/
  doer : ∀ k answer, s.work = some (k, answer) → calls k = some (.ended (endingOf answer))
  /-- A call that has come waits for somebody at work, unless the work is done. -/
  running : ∀ k, calls k = some .running →
    s.guard.done = true ∨ s.guard.worker.isSome = true
  /-- A call that has ended did the work itself, or it has passed after somebody else did. -/
  ended : ∀ k e, calls k = some (.ended e) →
    ∃ doer answer, s.work = some (doer, answer) ∧
      e = if k = doer then endingOf answer else .returned {}

namespace Sound

variable {s : Site} {calls : Nat → Option Status}

theorem new (none : ∀ k, calls k = .none) : Sound {} calls where
  idle _ := rfl
  begun := rfl
  worked := rfl
  worker _ same := absurd same (Option.some_ne_none _).symm
  doer _ _ same := absurd same (Option.some_ne_none _).symm
  running k same := by simp [none k] at same
  ended k e same := by simp [none k] at same

theorem asked (h : Sound s calls) {calls' : Nat → Option Status}
    (others : ∀ k, calls' k = calls k ∨ calls k = none ∧ calls' k = some .fresh) :
    Sound s calls' := by
  have same (k : Nat) (status : Status) (was : calls k = some status) : calls' k = some status := by
    rcases others k with same | ⟨fresh, -⟩
    · rw [same, was]
    · simp [fresh] at was
  have was (k : Nat) (status : Status) (live : status ≠ .fresh) (now : calls' k = some status) :
      calls k = some status := by
    rcases others k with same | ⟨-, fresh⟩
    · rw [← same, now]
    · exact absurd (Option.some.inj (now.symm.trans fresh)) live
  exact
    { h with
      worker := fun k works => same k _ (h.worker k works)
      doer := fun k answer works => same k _ (h.doer k answer works)
      running := fun k now => h.running k (was k _ nofun now)
      ended := fun k e now => h.ended k e (was k _ nofun now) }

theorem come (h : Sound s calls) {k : Nat} (fresh : calls k = some .fresh) :
    Sound (s.come k) (Function.update calls k (some .running)) := by
  -- A call that has done the work or has ended is not the one that comes now.
  have doer (κ : Nat) (answer : Except Error Unit) (works : s.work = some (κ, answer)) :
      Function.update calls k (some .running) κ = some (.ended (endingOf answer)) := by
    have ended := h.doer κ answer works
    have other : κ ≠ k := fun same => by simp [same, fresh] at ended
    rwa [Function.update_of_ne other]
  have ended (κ : Nat) (e : Ending)
      (now : Function.update calls k (some .running) κ = some (.ended e)) :
      calls κ = some (.ended e) := by
    have other : κ ≠ k := fun same => by simp [same] at now
    rwa [Function.update_of_ne other] at now
  unfold Site.come
  rcases s.guard.enter_cases k with ⟨done, passes⟩ | ⟨going, free, works⟩ | ⟨going, busy, waits⟩
  · rw [passes]
    exact
      { h with
        worker := fun κ works => by simp [h.idle done] at works
        doer
        running := fun _ _ => .inl done
        ended := fun κ e now => h.ended κ e (ended κ e now) }
  · -- The first call to come works.
    rw [works]
    have first : s.begun = 0 := by simp [h.begun, going, free]
    exact
      { idle := fun done => absurd (done.symm.trans going) nofun
        begun := by simp [first]
        worked := h.worked
        worker := fun κ same => by
          obtain rfl : k = κ := Option.some.inj same
          exact Function.update_self ..
        doer
        running := fun _ _ => .inr rfl
        ended := fun κ e now => h.ended κ e (ended κ e now) }
  · rw [waits]
    exact
      { h with
        worker := fun κ works => by
          have other : κ ≠ k := fun same => by simp [same ▸ h.worker κ works] at fresh
          rw [Function.update_of_ne other]
          exact h.worker κ works
        doer
        running := fun _ _ => .inr busy
        ended := fun κ e now => h.ended κ e (ended κ e now) }

/-- The body ends: its call ends as the body did, and the guard lets the others pass. -/
theorem finish (h : Sound s calls) {k : Nat} (works : s.guard.worker = some k)
    (answer : Except Error Unit) :
    Sound (s.finish k answer) (Function.update calls k (some (.ended (endingOf answer)))) := by
  have going : s.guard.done = false := Bool.eq_false_iff.2 fun done => by
    simp [h.idle done] at works
  -- Nobody has passed yet.
  have unworked : s.work = none := by simpa [going] using h.worked
  exact
    { idle := fun _ => rfl
      begun := by simp [Site.finish, h.begun, works]
      worked := rfl
      worker := fun κ same => absurd same (Option.some_ne_none _).symm
      doer := fun κ answer' same => by
        cases same
        exact Function.update_self ..
      running := fun _ _ => .inl rfl
      ended := fun κ e now => by
        refine ⟨k, answer, rfl, ?_⟩
        by_cases same : κ = k
        · rw [same, Function.update_self] at now
          rw [if_pos same]
          exact (Status.ended.inj (Option.some.inj now)).symm
        · rw [Function.update_of_ne same] at now
          obtain ⟨_, _, worked, -⟩ := h.ended κ e now
          simp [unworked] at worked }

theorem pass (h : Sound s calls) {k : Nat} (done : s.guard.done = true)
    (running : calls k = some .running) :
    Sound s (Function.update calls k (some (.ended (.returned {})))) := by
  have doer (κ : Nat) (answer : Except Error Unit) (works : s.work = some (κ, answer)) : κ ≠ k :=
    fun same => by simp [same ▸ h.doer κ answer works] at running
  exact
    { h with
      worker := fun κ works => by simp [h.idle done] at works
      doer := fun κ answer works => by
        rw [Function.update_of_ne (doer κ answer works)]
        exact h.doer κ answer works
      running := fun _ _ => .inl done
      ended := fun κ e now => by
        by_cases same : κ = k
        · -- The guard is closed, so the body has come out in the call of another one.
          obtain ⟨⟨κ', answer⟩, works⟩ := Option.isSome_iff_exists.1 (h.worked.trans done)
          rw [same, Function.update_self] at now
          refine ⟨κ', answer, works, ?_⟩
          rw [same, if_neg (doer κ' answer works).symm]
          exact (Status.ended.inj (Option.some.inj now)).symm
        · rw [Function.update_of_ne same] at now
          exact h.ended κ e now }

theorem begun_le (h : Sound s calls) : s.begun ≤ 1 := by
  rw [h.begun]
  split <;> decide

end Sound
end Site
end Vigil.Schedule
