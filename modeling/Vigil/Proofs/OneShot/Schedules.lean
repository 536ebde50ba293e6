import Vigil.Proofs.OneShot.Basic

/-!
# What is certain of a guard in every schedule

Whatever the scheduler decides, there is one body at a time and only one runs to completion. From
then on nothing begins any more and every call returns, well unless the body was its own and failed.
A body that breaks off leaves the guard open: the call that has waited longest has the turn then, or
else whoever comes next.

What has happened so far is kept as a history, and two invariants tie it to the guard: what happened
to each call agrees with where the call stands, and the order of what happened keeps to the law of
the guard.

The module introduces:

* `Crowd.Seen` and `Crowd.Lawful`, the invariants of the history;
* `Crowd.Sound`, all that holds in every schedule;
* `Crowd.WorksOnce`, what is certain of the calls of a guard.
-/

namespace Vigil
namespace Crowd

/-! ## What has happened -/

/-- What has happened to the calls agrees with where they stand, call by call. -/
structure Seen (history : List Occurrence) (stands : Nat → Stand) : Prop where
  /-- Nothing has happened to a call before its body begins, unless it is gone. -/
  unseen : ∀ k, stands k = .away ∨ stands k = .here → ∀ o ∈ history, o.call ≠ k
  inProgress : ∀ k, InProgress history k ↔ stands k = .working

namespace Seen

variable {history : List Occurrence} {stands : Nat → Stand} {k : Nat}

theorem new : Seen [] fun _ => .away where
  unseen _ _ := nofun
  inProgress _ := iff_of_false (fun h => List.not_mem_nil h.1) nofun

theorem inProgress_append {j : Nat} {more : List Occurrence} (apart : ∀ o ∈ more, o.call ≠ j) :
    InProgress (history ++ more) j ↔ InProgress history j := by
  have same (o : Occurrence) (own : o.call = j) : o ∈ history ++ more ↔ o ∈ history := by
    rw [List.mem_append, or_iff_left fun new => apart o new own]
  simp only [InProgress, same (.begins j) rfl, same (.leaves j) rfl, same (.completes j _) rfl]

theorem waits (h : Seen history stands) (away : stands k = .away) :
    Seen history (Function.update stands k .here) where
  unseen j there := by
    by_cases same : j = k
    · rw [same]
      exact h.unseen k (.inl away)
    · rw [Function.update_of_ne same] at there
      exact h.unseen j there
  inProgress j := by
    rw [h.inProgress]
    by_cases same : j = k
    · rw [same, Function.update_self, away]
      exact iff_of_false nofun nofun
    · rw [Function.update_of_ne same]

/-- Something happens to the call `k`, which is at work or gone from then on; the others stay as
they were. -/
theorem moves (h : Seen history stands) {new : Stand} {more : List Occurrence}
    (own : ∀ o ∈ more, o.call = k) (seen : new = .working ∨ new = .gone)
    (progress : InProgress (history ++ more) k ↔ new = .working) :
    Seen (history ++ more) (Function.update stands k new) where
  unseen j there := by
    have same : j ≠ k := by
      rintro rfl
      rw [Function.update_self] at there
      -- A call to which something has happened is neither away nor waiting.
      rcases seen with rfl | rfl <;> simp at there
    rw [Function.update_of_ne same] at there
    intro o happened
    rcases List.mem_append.1 happened with before | now
    · exact h.unseen j there o before
    · rw [own o now]
      exact same.symm
  inProgress j := by
    by_cases same : j = k
    · rw [same, Function.update_self]
      exact progress
    · rw [Function.update_of_ne same, ← h.inProgress j]
      refine inProgress_append fun o now => ?_
      rw [own o now]
      exact fun h => same h.symm

end Seen

/-- What has happened keeps to the law of the guard, which is `closed` or not. -/
structure Lawful (closed : Bool) (history : List Occurrence) : Prop where
  completed : closed = true ↔ ∃ k answer, .completes k answer ∈ history
  /-- After a body has run to completion none runs to completion or begins. -/
  once : history.Pairwise fun o later =>
    o.IsCompletion → ¬later.IsCompletion ∧ ¬later.IsBeginning
  /-- A call returns after a body has run to completion: with the answer of that body if it was its
  own, and well otherwise. -/
  returned : ∀ before k answer after, history = before ++ .returns k answer :: after →
    ∃ worker outcome, .completes worker outcome ∈ before ∧
      answer = if k = worker then outcome else .ok ()

namespace Lawful

variable {closed : Bool} {history : List Occurrence} {k : Nat}

theorem new : Lawful false [] where
  completed := iff_of_false nofun (by simp)
  once := .nil
  returned := by simp

theorem cut_concat {before after : List Occurrence} {o last : Occurrence}
    (cut : history ++ [last] = before ++ o :: after) :
    history = before ∧ last = o ∨ ∃ rest, history = before ++ o :: rest := by
  rcases List.eq_nil_or_concat after with rfl | ⟨rest, x, rfl⟩
  · obtain ⟨same, one⟩ := List.append_inj' cut rfl
    exact .inl ⟨same, (List.cons.inj one).1⟩
  · rw [List.concat_eq_append, ← List.cons_append, ← List.append_assoc] at cut
    exact .inr ⟨rest, (List.append_inj' cut rfl).1⟩

/-- The law is kept when something else happens than that a body runs to completion. -/
theorem concat (h : Lawful closed history) {o : Occurrence} (quiet : ¬o.IsCompletion)
    (early : o.IsBeginning → closed = false)
    (right : ∀ k answer, o = .returns k answer → ∃ worker outcome,
      .completes worker outcome ∈ history ∧ answer = if k = worker then outcome else .ok ()) :
    Lawful closed (history ++ [o]) where
  completed := by
    rw [h.completed]
    constructor
    · rintro ⟨k, answer, before⟩
      exact ⟨k, answer, List.mem_append_left [o] before⟩
    · rintro ⟨k, answer, happened⟩
      rcases List.mem_append.1 happened with before | now
      · exact ⟨k, answer, before⟩
      · rw [← List.mem_singleton.1 now] at quiet
        exact absurd trivial quiet
  once := by
    refine List.pairwise_append.2 ⟨h.once, List.pairwise_singleton _ o, ?_⟩
    intro earlier before later now completion
    obtain rfl := List.mem_singleton.1 now
    refine ⟨quiet, fun begins => ?_⟩
    -- A body has run to completion, so the guard is closed and nothing begins.
    cases earlier with
    | completes k answer =>
      have done := h.completed.2 ⟨k, answer, before⟩
      rw [early begins] at done
      cases done
    | begins | returns | leaves => exact completion
  returned before k answer after cut := by
    rcases cut_concat cut with ⟨rfl, last⟩ | ⟨rest, cut⟩
    · exact right k answer last
    · exact h.returned before k answer rest cut

theorem completes (h : Lawful false history) (answer : Except Error Unit) :
    Lawful true (history ++ [.completes k answer]) where
  completed := iff_of_true rfl ⟨k, answer, by simp⟩
  once := by
    refine List.pairwise_append.2 ⟨h.once, List.pairwise_singleton _ _, ?_⟩
    intro earlier before later now completion
    -- None has run to completion before.
    cases earlier with
    | completes k answer => exact absurd (h.completed.2 ⟨k, answer, before⟩) nofun
    | begins | returns | leaves => exact absurd completion id
  returned before j answer' after cut := by
    rcases cut_concat cut with ⟨-, last⟩ | ⟨rest, cut⟩
    · cases last
    · exact h.returned before j answer' rest cut

end Lawful

/-! ## The invariant of all schedules -/

/-- The invariant of a crowd: the calls of a guard, where they stand and what has happened to them
agree. -/
structure Sound (c : Crowd) : Prop where
  serves : Serves c.guard c.stands
  seen : Seen c.history c.stands
  lawful : Lawful c.guard.done c.history

namespace Sound

variable {c c' : Crowd} {k : Nat}

theorem new : Sound {} := ⟨.new, .new, .new⟩

theorem begins (h : Sound c) (isOpen : c.guard.done = false)
    (turn : MayBegin c.guard c.stands k) :
    Sound ({ c with guard := { c.guard with worker := some k } }.begin k) where
  serves := h.serves.begins isOpen turn
  seen := by
    have fresh := h.seen.unseen k (turn.imp And.left And.left)
    refine h.seen.moves (by simp [Occurrence.call]) (.inl rfl) (iff_of_true ⟨by simp, ?_, ?_⟩ rfl)
    · simpa using fun before => fresh _ before rfl
    · simpa using fun answer before => fresh _ before rfl
  lawful := h.lawful.concat id (fun _ => isOpen) nofun

theorem passes (h : Sound c) (idle : c.stands k = .away ∨ c.stands k = .here)
    (done : c.guard.done = true) : Sound (c.pass k) where
  serves := h.serves.passes done
  seen := by
    refine h.seen.moves (by simp [Occurrence.call]) (.inr rfl) (iff_of_false ?_ nofun)
    rintro ⟨begun, -⟩
    exact h.seen.unseen k idle (.begins k) (by simpa using begun) rfl
  lawful := by
    refine h.lawful.concat id nofun ?_
    rintro k answer ⟨⟩
    -- Some body has run to completion, and not that of this call.
    obtain ⟨worker, outcome, completed⟩ := h.lawful.completed.1 done
    refine ⟨worker, outcome, completed, (if_neg ?_).symm⟩
    rintro rfl
    exact h.seen.unseen _ idle _ completed rfl

theorem completes (h : Sound c) (works : c.stands k = .working) (answer : Except Error Unit) :
    Sound (c.complete k answer) where
  serves := h.serves.completes works
  seen := by
    refine h.seen.moves (by simp [Occurrence.call]) (.inr rfl) (iff_of_false ?_ nofun)
    rintro ⟨-, -, incomplete⟩
    exact incomplete answer (by simp)
  lawful := by
    have isOpen := h.serves.isOpen (h.serves.working k works)
    have law := h.lawful
    rw [isOpen] at law
    have after := (law.completes (k := k) answer).concat (o := .returns k answer) id nofun (by
      rintro k answer ⟨⟩
      exact ⟨k, answer, by simp, (if_pos rfl).symm⟩)
    rwa [List.append_assoc] at after

theorem leaves (h : Sound c) : Sound (c.leave k) where
  serves := h.serves.leaves
  seen := by
    refine h.seen.moves (by simp [Occurrence.call]) (.inr rfl) (iff_of_false ?_ nofun)
    rintro ⟨-, there, -⟩
    exact there (by simp)
  lawful := by
    have law := h.lawful.concat (o := .leaves k) id nofun nofun
    rwa [← c.guard.done_withdraw k] at law

/-- Whatever the scheduler decides, the invariant holds, by one lemma for each case of `Leads`. -/
theorem step (h : Sound c) (e : Event) : Sound (c.step e) := by
  have leads := c.leads_step e
  generalize c.step e = c' at leads
  cases leads with
  | nothing => exact h
  | begins k isOpen turn => exact h.begins isOpen turn
  | waits k away isOpen busy =>
    exact ⟨h.serves.waits away busy, h.seen.waits away, h.lawful⟩
  | passes k idle done => exact h.passes idle done
  | completes k answer works => exact h.completes works answer
  | leaves k there => exact h.leaves

end Sound

theorem sound_after (events : List Event) : Sound (after events) := by
  induction events using List.reverseRecOn with
  | nil => exact .new
  | append_singleton events e ih =>
    rw [after_concat]
    exact ih.step e

/-! ## What is certain of every schedule -/

/-- The crowd `c` after some further decisions. -/
def run (c : Crowd) (events : List Event) : Crowd := events.foldl step c

/-- The body of `call` begins as soon as the call goes on. -/
def BeginsNext (c : Crowd) (call : Nat) : Prop :=
  (c.step (.goesOn call)).history = c.history ++ [.begins call]

/-- The next body to begin is that of a call that waits, or else that of whoever comes. -/
def HasNext (c : Crowd) : Prop :=
  (∃ k, c.stands k = .here ∧ c.BeginsNext k) ∨
    (∀ k, c.stands k ≠ .here) ∧ ∀ k, c.stands k = .away → c.BeginsNext k

/-- There are decisions after which `call` has returned. -/
def CanReturn (c : Crowd) (call : Nat) : Prop :=
  ∃ later answer, .returns call answer ∈ (c.run later).history

theorem CanReturn.step {c : Crowd} {call : Nat} (e : Event) (h : (c.step e).CanReturn call) :
    c.CanReturn call := by
  obtain ⟨later, answer, returned⟩ := h
  exact ⟨e :: later, answer, returned⟩

/-- What is certain of the calls of a guard, whatever the scheduler decided before it came to
`c`. -/
structure WorksOnce (c : Crowd) : Prop where
  alone : ∀ j k, InProgress c.history j → InProgress c.history k → j = k
  /-- The guard is closed exactly if a body has run to completion, well or badly. -/
  done_iff : c.guard.done = true ↔ ∃ k answer, .completes k answer ∈ c.history
  /-- It stays closed. -/
  stays : c.guard.done = true → ∀ later, (c.run later).guard.done = true
  /-- After a body has run to completion none runs to completion or begins. -/
  once : c.history.Pairwise fun o later =>
    o.IsCompletion → ¬later.IsCompletion ∧ ¬later.IsBeginning
  /-- A call returns after a body has run to completion: with the answer of that body if it was its
  own, and well otherwise. -/
  returned : ∀ before k answer after, c.history = before ++ .returns k answer :: after →
    ∃ worker outcome, .completes worker outcome ∈ before ∧
      answer = if k = worker then outcome else .ok ()
  /-- So a call that returns an error is the one whose own body has come out with it. -/
  failed : ∀ k e, .returns k (.error e) ∈ c.history → .completes k (.error e) ∈ c.history
  /-- As long as the guard is open and no body is in progress, the next caller's body begins. -/
  hasNext : c.guard.done = false → (∀ k, ¬InProgress c.history k) → c.HasNext
  /-- A body that panics or is dropped leaves the guard open for the next caller, whose body begins
  then. -/
  brokenOff : ∀ k, InProgress c.history k → ∀ e ∈ [Event.panics k, .drops k],
    (c.step e).history = c.history ++ [.leaves k] ∧ (c.step e).guard.done = false ∧
      (c.step e).HasNext
  /-- Nobody is left behind: a call that has not gone can still return. -/
  canReturn : ∀ k, c.stands k ≠ .gone → c.CanReturn k

section
variable {c : Crowd} {k : Nat}

theorem step_goesOn_of_done (idle : c.stands k = .away ∨ c.stands k = .here)
    (done : c.guard.done = true) : c.step (.goesOn k) = c.pass k := by
  rcases idle with away | here
  · simp [step, away, Guard.enter_of_done done]
  · simp [step, here, done]

theorem step_goesOn_of_turn (isOpen : c.guard.done = false)
    (turn : MayBegin c.guard c.stands k) :
    c.step (.goesOn k) = { c with guard := { c.guard with worker := some k } }.begin k := by
  rcases turn with ⟨away, free⟩ | ⟨here, own⟩
  · simp [step, away, Guard.enter, isOpen, free]
  · have same : { c.guard with worker := some k } = c.guard := by rw [← own]
    rw [same]
    simp [step, here, isOpen, own]

theorem done_step (done : c.guard.done = true) (e : Event) : (c.step e).guard.done = true := by
  have leads := c.leads_step e
  generalize c.step e = c' at leads
  cases leads with
  | nothing => exact done
  | begins _ isOpen => exact absurd (done.symm.trans isOpen) nofun
  | waits => exact done
  | passes => exact done
  | completes => rfl
  | leaves call => exact (c.guard.done_withdraw call).trans done

theorem done_run (done : c.guard.done = true) (events : List Event) :
    (c.run events).guard.done = true := by
  induction events generalizing c with
  | nil => exact done
  | cons e events ih => exact ih (done_step done e)

end

namespace Sound

variable {c : Crowd} (h : Sound c)

include h

theorem turn_of_inProgress {k : Nat} (works : InProgress c.history k) : c.guard.worker = some k :=
  h.serves.working k ((h.seen.inProgress k).1 works)

theorem not_here (isOpen : c.guard.done = false) (free : c.guard.worker = none) (k : Nat) :
    c.stands k ≠ .here := by
  intro here
  rcases h.serves.here k here with done | turn | waits
  · exact absurd (done.symm.trans isOpen) nofun
  · exact absurd (free.symm.trans turn) nofun
  · rw [h.serves.free free] at waits
    cases waits

theorem hasNext (isOpen : c.guard.done = false) (idle : ∀ k, ¬InProgress c.history k) :
    c.HasNext := by
  have begins {k : Nat} (turn : MayBegin c.guard c.stands k) : c.BeginsNext k := by
    unfold BeginsNext
    rw [step_goesOn_of_turn isOpen turn]
    rfl
  cases worker : c.guard.worker with
  | some k =>
    -- A call has the turn, and its body has not begun.
    rcases h.serves.turn k worker with here | works
    · exact .inl ⟨k, here, begins (.inr ⟨here, worker⟩)⟩
    · exact absurd ((h.seen.inProgress k).2 works) (idle k)
  | none =>
    exact .inr ⟨h.not_here isOpen worker, fun k away => begins (.inl ⟨away, worker⟩)⟩

theorem leave_of_inProgress {k : Nat} (works : InProgress c.history k) :
    (c.leave k).guard.done = false ∧ (c.leave k).HasNext := by
  have isOpen : (c.leave k).guard.done = false :=
    (c.guard.done_withdraw k).trans (h.serves.isOpen (h.turn_of_inProgress works))
  refine ⟨isOpen, h.leaves.hasNext isOpen fun j other => ?_⟩
  -- Another body in progress would have been in progress before.
  obtain ⟨same, works'⟩ := Serves.of_update ((h.leaves.seen.inProgress j).1 other) nofun
  exact same (Serves.unique (h.serves.working j works') (h.turn_of_inProgress works))

theorem canReturn_of_done {k : Nat} (done : c.guard.done = true) (there : c.stands k ≠ .gone) :
    c.CanReturn k := by
  have idle : c.stands k = .away ∨ c.stands k = .here := by
    cases stands : c.stands k with
    | away => exact .inl rfl
    | here => exact .inr rfl
    | working =>
      have free := h.serves.closed done
      exact absurd (free.symm.trans (h.serves.working k stands)) nofun
    | gone => exact absurd stands there
  refine ⟨[.goesOn k], .ok (), ?_⟩
  show _ ∈ (c.step (.goesOn k)).history
  rw [step_goesOn_of_done idle done]
  exact List.mem_append_right _ (List.mem_singleton_self _)

theorem canReturn_of_working {w k : Nat} (works : c.stands w = .working)
    (there : c.stands k ≠ .gone) : c.CanReturn k := by
  have completes : c.step (.completes w (.ok ())) = c.complete w (.ok ()) := by
    simp [Crowd.step, works]
  by_cases same : k = w
  · refine ⟨[.completes w (.ok ())], .ok (), ?_⟩
    show _ ∈ (c.step (.completes w (.ok ()))).history
    rw [completes, same]
    exact List.mem_append_right _ (by simp)
  · -- The call goes on after the other one has returned.
    refine .step (.completes w (.ok ())) ?_
    rw [completes]
    refine (h.completes works _).canReturn_of_done rfl ?_
    show Function.update c.stands w .gone k ≠ .gone
    rwa [Function.update_of_ne same]

/-- A call can return whatever has to happen before: no decision of the scheduler leaves it behind
for ever. -/
theorem canReturn (k : Nat) (there : c.stands k ≠ .gone) : c.CanReturn k := by
  cases done : c.guard.done with
  | true => exact h.canReturn_of_done done there
  | false =>
    cases worker : c.guard.worker with
    | some w =>
      rcases h.serves.turn w worker with here | works
      · -- The call that has the turn begins its body first.
        refine .step (.goesOn w) ?_
        have turn : MayBegin c.guard c.stands w := .inr ⟨here, worker⟩
        rw [step_goesOn_of_turn done turn]
        refine (h.begins done turn).canReturn_of_working (Function.update_self ..) ?_
        intro gone
        exact there (Serves.of_update gone nofun).2
      · exact h.canReturn_of_working works there
    | none =>
      -- Nobody has the turn, so the call begins its own body.
      refine .step (.goesOn k) ?_
      have away : c.stands k = .away := by
        cases stands : c.stands k with
        | away => rfl
        | here => exact absurd stands (h.not_here done worker k)
        | working => exact absurd (worker.symm.trans (h.serves.working k stands)) nofun
        | gone => exact absurd stands there
      have turn : MayBegin c.guard c.stands k := .inl ⟨away, worker⟩
      rw [step_goesOn_of_turn done turn]
      refine (h.begins done turn).canReturn_of_working (Function.update_self ..) ?_
      intro gone
      exact absurd (gone.symm.trans (Function.update_self ..)) nofun

end Sound

/-- Whatever the scheduler decides, and however bodies come out, one body at a time is in progress,
one runs to completion, and every call returns according to it (`WorksOnce`). -/
theorem guard_works_once (events : List Event) : WorksOnce (after events) := by
  have h := sound_after events
  generalize after events = c at h
  exact
    { alone := fun j k one other =>
        Serves.unique (h.turn_of_inProgress one) (h.turn_of_inProgress other)
      done_iff := h.lawful.completed
      stays := fun done later => done_run done later
      once := h.lawful.once
      returned := h.lawful.returned
      failed := fun k e returned => by
        -- A call that fails has worked itself, since one that passes returns without a failure.
        obtain ⟨before, after, cut⟩ := List.append_of_mem returned
        obtain ⟨worker, outcome, completed, answer⟩ := h.lawful.returned before k _ after cut
        split at answer
        · next same =>
          rw [cut, same, answer]
          exact List.mem_append_left _ completed
        · cases answer
      hasNext := h.hasNext
      brokenOff := fun k works e broken => by
        have stands := (h.seen.inProgress k).1 works
        -- A body that is in progress is broken off in one way, whether it panics or is dropped.
        have leaves : c.step e = c.leave k := by
          simp only [List.mem_cons, List.not_mem_nil, or_false] at broken
          rcases broken with rfl | rfl <;> simp [step, stands]
        rw [leaves]
        exact ⟨rfl, h.leave_of_inProgress works⟩
      canReturn := h.canReturn }

-- The first body is dropped, the second one fails, and the third call never begins its own.
example :
    (after [.goesOn 0, .goesOn 1, .goesOn 2, .drops 0, .goesOn 2, .goesOn 1,
      .completes 1 (.error .emptyName), .goesOn 2]).history =
      [.begins 0, .leaves 0, .begins 1, .completes 1 (.error .emptyName),
       .returns 1 (.error .emptyName), .returns 2 (.ok ())] := by
  decide

end Crowd
end Vigil
