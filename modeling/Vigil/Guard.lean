/-!
# One-shot guards

Several callers may ask for the same work at the same time. A guard lets one of them do it; the
others wait for it and then pass. A worker that breaks off without finishing hands the work to the
caller that has waited longest, and once the work is done every caller passes at once.

The module introduces:

* `Guard`, whose state is whether the work is done, who does it and who waits;
* `Guard.enter`, `Guard.complete` and `Guard.withdraw`, the steps of a caller.
-/

namespace Vigil

/-- A guard around work that is done at most once. Its callers are numbered; one of them may be at
work while others wait for it. -/
structure Guard where
  done : Bool := false
  /-- The caller that does the work. -/
  worker : Option Nat := none
  /-- The callers that wait, the first of them the longest. -/
  waiting : List Nat := []
  deriving DecidableEq, Repr, Inhabited

namespace Guard

/-- What a caller does after `Guard.enter`, when it has come to a guard. -/
inductive Turn where
  | works
  | waits
  /-- It goes on, because the work is done. -/
  | passes
  deriving DecidableEq, Repr

/-- The caller `caller` comes to the guard `g`: it passes if the work is done, works if nobody does,
and otherwise waits behind all others. -/
def enter (g : Guard) (caller : Nat) : Turn × Guard :=
  if g.done then (.passes, g)
  else
    match g.worker with
    | none => (.works, { g with worker := some caller })
    | some _ => (.waits, { g with waiting := g.waiting ++ [caller] })

/-- The worker has finished, well or badly. The guard is closed for good, and the callers that
waited, which are returned, may go on. -/
def complete (g : Guard) : List Nat × Guard := (g.waiting, { done := true })

/-- The caller `caller` leaves without having finished. If it was the worker, the caller that has
waited longest works next and is returned. -/
def withdraw (g : Guard) (caller : Nat) : Option Nat × Guard :=
  if g.worker = some caller then
    match g.waiting with
    | [] => (none, { g with worker := none })
    | next :: rest => (some next, { g with worker := some next, waiting := rest })
  else (none, { g with waiting := g.waiting.filter (· != caller) })

/-- Once the work is done a `caller` passes, and the guard stays as it is. -/
theorem enter_of_done {g : Guard} (h : g.done = true) (caller : Nat) :
    g.enter caller = (.passes, g) := by
  simp [enter, h]

/-- The three things that `enter` does: the caller passes, works, or waits. Which of them depends on
`done` and `worker` alone. -/
theorem enter_cases (g : Guard) (caller : Nat) :
    (g.done = true ∧ g.enter caller = (.passes, g)) ∨
    (g.done = false ∧ g.worker = none ∧
      g.enter caller = (.works, { g with worker := some caller })) ∨
    (g.done = false ∧ g.worker.isSome = true ∧
      g.enter caller = (.waits, { g with waiting := g.waiting ++ [caller] })) := by
  unfold enter
  cases g.done with
  | true => exact .inl ⟨rfl, rfl⟩
  | false =>
    cases g.worker with
    | none => exact .inr (.inl ⟨rfl, rfl, rfl⟩)
    | some worker => exact .inr (.inr ⟨rfl, rfl, rfl⟩)

@[simp] theorem done_complete (g : Guard) : g.complete.2.done = true := rfl

/-- A caller that leaves, whoever it is, neither opens nor closes the guard. -/
@[simp] theorem done_withdraw (g : Guard) (caller : Nat) : (g.withdraw caller).2.done = g.done := by
  simp only [withdraw]
  split
  · split <;> rfl
  · rfl

/-- When `caller` is not the worker its leaving changes only who waits. -/
theorem worker_withdraw {g : Guard} {caller : Nat} (other : g.worker ≠ some caller) :
    (g.withdraw caller).2.worker = g.worker := by
  unfold withdraw
  rw [if_neg other]

/-- What becomes of a guard that `caller` leaves: nobody works any more, the caller that has waited
longest works next, or the worker stays who it was. -/
theorem withdraw_cases (g : Guard) (caller : Nat) :
    (g.worker = some caller ∧ g.waiting = [] ∧
      g.withdraw caller = (none, { g with worker := none })) ∨
    (∃ next rest, g.worker = some caller ∧ g.waiting = next :: rest ∧
      g.withdraw caller = (some next, { g with worker := some next, waiting := rest })) ∨
    (g.worker ≠ some caller ∧
      g.withdraw caller = (none, { g with waiting := g.waiting.filter (· != caller) })) := by
  unfold withdraw
  by_cases works : g.worker = some caller
  · rw [if_pos works]
    cases waiting : g.waiting with
    | nil => exact .inl ⟨works, rfl, rfl⟩
    | cons next rest => exact .inr (.inl ⟨next, rest, works, rfl, rfl⟩)
  · rw [if_neg works]
    exact .inr (.inr ⟨works, rfl⟩)

end Guard
end Vigil
