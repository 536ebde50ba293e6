import Mathlib.Data.List.Induction
import Mathlib.Logic.Function.Basic
import Vigil.Error
import Vigil.Guard

/-!
# Any number of calls at one guard

A guard is called by any number of callers, and a scheduler decides who goes on, and when. A call
first comes to the guard. Its body begins if nobody else has the turn, and otherwise the call waits.
A call may be dropped wherever it stands, and a body may come out well or badly, or panic.

The guard serves all of them in every schedule: a call that has come has the turn, waits for it, or
will find the guard closed.

The module introduces:

* `Crowd`, a guard with all calls of it, and what has happened so far;
* `Crowd.Event`, what the scheduler decides, and `Crowd.after`, the calls after some decisions;
* `Crowd.Leads`, what a decision can lead to;
* `Crowd.Serves`, the invariant of the guard and of where the calls stand.
-/

namespace Vigil

/-- How far a call of a guard has come, as far as it can be seen from its code. -/
inductive Stand where
  /-- It has not come to the guard. -/
  | away
  /-- It has come to the guard, and its body has not begun. -/
  | here
  | working
  /-- It has returned, it was dropped, or its body has panicked. -/
  | gone
  deriving DecidableEq

/-- Something that happens to a call and that its caller, or the body, can tell of. -/
inductive Occurrence where
  | begins (call : Nat)
  | completes (call : Nat) (answer : Except Error Unit)
  | returns (call : Nat) (answer : Except Error Unit)
  /-- It is dropped, or its body panics. -/
  | leaves (call : Nat)
  deriving DecidableEq

namespace Occurrence

def call : Occurrence → Nat
  | begins call => call
  | completes call _ => call
  | returns call _ => call
  | leaves call => call

def IsBeginning : Occurrence → Prop
  | begins _ => True
  | _ => False

def IsCompletion : Occurrence → Prop
  | completes .. => True
  | _ => False

end Occurrence

/-- The body of `call` has begun, has not run to completion and was not broken off, by what has
happened. -/
def InProgress (history : List Occurrence) (call : Nat) : Prop :=
  .begins call ∈ history ∧ .leaves call ∉ history ∧ ∀ answer, .completes call answer ∉ history

/-- A guard and all calls of it, where they stand, and what has happened so far. -/
structure Crowd where
  guard : Guard := {}
  /-- How far each call has come. -/
  stands : Nat → Stand := fun _ => .away
  /-- What has happened, in its order: what `WorksOnce` speaks of. -/
  history : List Occurrence := []

namespace Crowd

/-- A decision of the scheduler: which call goes on, and where a body ends or a call is lost. -/
inductive Event where
  /-- A call goes on. One that waits looks whether it may. -/
  | goesOn (call : Nat)
  | completes (call : Nat) (answer : Except Error Unit)
  | panics (call : Nat)
  /-- A call is dropped, wherever it stands. -/
  | drops (call : Nat)

def stand (c : Crowd) (call : Nat) (stand : Stand) : Crowd :=
  { c with stands := Function.update c.stands call stand }

def note (c : Crowd) (occurrences : List Occurrence) : Crowd :=
  { c with history := c.history ++ occurrences }

def begin (c : Crowd) (call : Nat) : Crowd := (c.stand call .working).note [.begins call]

def pass (c : Crowd) (call : Nat) : Crowd := (c.stand call .gone).note [.returns call (.ok ())]

/-- The body of `call` has run to completion, and the call returns its answer. -/
def complete (c : Crowd) (call : Nat) (answer : Except Error Unit) : Crowd :=
  ({ c with guard := c.guard.complete.2 }.stand call .gone).note
    [.completes call answer, .returns call answer]

/-- A call ends without having returned: it was dropped, or its body has panicked. -/
def leave (c : Crowd) (call : Nat) : Crowd :=
  ({ c with guard := (c.guard.withdraw call).2 }.stand call .gone).note [.leaves call]

/-- What a decision leads to. One that cannot be taken where `c` stands leads to nothing. -/
def step (c : Crowd) : Event → Crowd
  | .goesOn call =>
    match c.stands call with
    | .away =>
      match c.guard.enter call with
      | (.works, guard) => { c with guard }.begin call
      | (.waits, guard) => { c with guard }.stand call .here
      | (.passes, guard) => { c with guard }.pass call
    | .here =>
      if c.guard.done then c.pass call
      -- The call before it has broken off.
      else if c.guard.worker = some call then c.begin call
      else c
    | _ => c
  | .completes call answer => if c.stands call = .working then c.complete call answer else c
  | .panics call => if c.stands call = .working then c.leave call else c
  | .drops call => if c.stands call = .gone then c else c.leave call

/-- The calls after the decisions `events`, from a new guard on. -/
def after (events : List Event) : Crowd := events.foldl step {}

theorem after_concat (events : List Event) (e : Event) :
    after (events ++ [e]) = (after events).step e := by
  simp [after]

/-! ## What a decision can lead to -/

/-- The call may begin its body: it comes to a guard at which nobody has the turn, or it has waited
until it had the turn itself. -/
def MayBegin (g : Guard) (stands : Nat → Stand) (call : Nat) : Prop :=
  stands call = .away ∧ g.worker = none ∨ stands call = .here ∧ g.worker = some call

/-- What a decision may lead to from `c`: all that a step can do, so that later proofs need not look
into it. -/
inductive Leads (c : Crowd) : Crowd → Prop
  | nothing : Leads c c
  | begins (call : Nat) (isOpen : c.guard.done = false) (turn : MayBegin c.guard c.stands call) :
      Leads c ({ c with guard := { c.guard with worker := some call } }.begin call)
  | waits (call : Nat) (away : c.stands call = .away) (isOpen : c.guard.done = false)
      (busy : c.guard.worker.isSome = true) :
      Leads c ({ c with guard := { c.guard with waiting := c.guard.waiting ++ [call] } }.stand call
        .here)
  | passes (call : Nat) (idle : c.stands call = .away ∨ c.stands call = .here)
      (done : c.guard.done = true) : Leads c (c.pass call)
  | completes (call : Nat) (answer : Except Error Unit) (works : c.stands call = .working) :
      Leads c (c.complete call answer)
  | leaves (call : Nat) (there : c.stands call ≠ .gone) : Leads c (c.leave call)

/-- There is nothing else that a decision leads to but what `Leads` lists. -/
theorem leads_step (c : Crowd) (e : Event) : c.Leads (c.step e) := by
  cases e with
  | goesOn call =>
    dsimp only [step]
    cases stands : c.stands call with
    | away =>
      rcases c.guard.enter_cases call with ⟨done, passes⟩ | ⟨isOpen, free, works⟩ |
        ⟨isOpen, busy, waits⟩
      · simp only [passes]
        exact .passes call (.inl stands) done
      · simp only [works]
        exact .begins call isOpen (.inl ⟨stands, free⟩)
      · simp only [waits]
        exact .waits call stands isOpen busy
    | here =>
      dsimp only
      split
      · next done => exact .passes call (.inr stands) done
      · next isOpen =>
        split
        · next turn =>
          -- The guard has handed the turn to the call before, so beginning changes nothing in it.
          have same : { c.guard with worker := some call } = c.guard := by rw [← turn]
          have begins := Leads.begins call (Bool.eq_false_iff.2 isOpen) (.inr ⟨stands, turn⟩)
          rwa [same] at begins
        · exact .nothing
    | working => exact .nothing
    | gone => exact .nothing
  | completes call answer =>
    dsimp only [step]
    split
    · next works => exact .completes call answer works
    · exact .nothing
  | panics call =>
    dsimp only [step]
    split
    · next works => exact .leaves call (by rw [works]; decide)
    · exact .nothing
  | drops call =>
    dsimp only [step]
    split
    · exact .nothing
    · next there => exact .leaves call there

/-! ## Where the calls stand -/

/-- The guard `g` serves the calls of it: every call that has come and has not gone has the turn or
waits for it, unless the guard is closed. -/
structure Serves (g : Guard) (stands : Nat → Stand) : Prop where
  /-- Nobody has the turn once the guard is closed. -/
  closed : g.done = true → g.worker = none
  /-- If nobody has the turn then nobody waits for it. -/
  free : g.worker = none → g.waiting = []
  turn : ∀ k, g.worker = some k → stands k = .here ∨ stands k = .working
  /-- Only the call that has the turn works. -/
  working : ∀ k, stands k = .working → g.worker = some k
  waiting : ∀ k ∈ g.waiting, stands k = .here ∧ g.worker ≠ some k
  nodup : g.waiting.Nodup
  here : ∀ k, stands k = .here → g.done = true ∨ g.worker = some k ∨ k ∈ g.waiting

namespace Serves

variable {g : Guard} {stands : Nat → Stand} {k : Nat}

theorem of_update {j : Nat} {s new : Stand} (now : Function.update stands k new j = s)
    (other : new ≠ s) : j ≠ k ∧ stands j = s := by
  by_cases same : j = k
  · rw [same, Function.update_self] at now
    exact absurd now other
  · rw [Function.update_of_ne same] at now
    exact ⟨same, now⟩

theorem new : Serves {} fun _ => .away where
  closed := nofun
  free _ := rfl
  turn := nofun
  working := nofun
  waiting := nofun
  nodup := .nil
  here := nofun

theorem isOpen (h : Serves g stands) (turn : g.worker = some k) : g.done = false := by
  rw [← Bool.not_eq_true]
  intro done
  rw [h.closed done] at turn
  cases turn

theorem unique {i j : Nat} (one : g.worker = some i) (other : g.worker = some j) : i = j :=
  Option.some.inj (one.symm.trans other)

theorem begins (h : Serves g stands) (isOpen : g.done = false) (turn : MayBegin g stands k) :
    Serves { g with worker := some k } (Function.update stands k .working) := by
  -- Nobody else has the turn, and whoever waits is somebody else.
  have alone : ∀ j, g.worker = some j → j = k := by
    intro j works
    rcases turn with ⟨-, free⟩ | ⟨-, own⟩
    · rw [free] at works
      cases works
    · exact unique works own
  have others : ∀ j ∈ g.waiting, j ≠ k := by
    rintro j waits rfl
    rcases turn with ⟨-, free⟩ | ⟨-, own⟩
    · rw [h.free free] at waits
      cases waits
    · exact (h.waiting j waits).2 own
  refine ⟨fun done => ?_, nofun, ?_, ?_, ?_, h.nodup, ?_⟩
  · exact absurd (done.symm.trans isOpen) nofun
  · intro j own
    obtain rfl : k = j := Option.some.inj own
    exact .inr (Function.update_self ..)
  · intro j works
    by_cases same : j = k
    · rw [same]
    · rw [Function.update_of_ne same] at works
      exact absurd (alone j (h.working j works)) same
  · intro j waits
    rw [Function.update_of_ne (others j waits)]
    exact ⟨(h.waiting j waits).1, fun own => others j waits (Option.some.inj own).symm⟩
  · intro j here
    obtain ⟨same, here⟩ := of_update here nofun
    rcases h.here j here with done | works | waits
    · exact .inl done
    · exact absurd (alone j works) same
    · exact .inr (.inr waits)

theorem waits (h : Serves g stands) (away : stands k = .away) (busy : g.worker.isSome = true) :
    Serves { g with waiting := g.waiting ++ [k] } (Function.update stands k .here) := by
  -- A call that has not come does not have the turn, nor does it wait.
  have working : ∀ j, g.worker = some j → j ≠ k := by
    rintro j works rfl
    rcases h.turn j works with there | there <;> cases away.symm.trans there
  have waiting : ∀ j ∈ g.waiting, j ≠ k := by
    rintro j waits rfl
    cases away.symm.trans (h.waiting j waits).1
  refine ⟨h.closed, fun free => ?_, ?_, ?_, ?_, ?_, ?_⟩
  · have none : g.worker = none := free
    simp [none] at busy
  · intro j works
    rw [Function.update_of_ne (working j works)]
    exact h.turn j works
  · intro j works
    exact h.working j (of_update works nofun).2
  · intro j waits
    rcases List.mem_append.1 waits with before | last
    · rw [Function.update_of_ne (waiting j before)]
      exact h.waiting j before
    · obtain rfl : j = k := List.mem_singleton.1 last
      exact ⟨Function.update_self .., fun works => working j works rfl⟩
  · refine List.nodup_append.2 ⟨h.nodup, List.pairwise_singleton _ k, ?_⟩
    intro j before last new same
    exact waiting j before (same.trans (List.mem_singleton.1 new))
  · intro j here
    by_cases same : j = k
    · exact .inr (.inr (by simp [same]))
    · rw [Function.update_of_ne same] at here
      rcases h.here j here with done | works | waits
      · exact .inl done
      · exact .inr (.inl works)
      · exact .inr (.inr (List.mem_append_left [k] waits))

theorem passes (h : Serves g stands) (done : g.done = true) :
    Serves g (Function.update stands k .gone) := by
  have free := h.closed done
  refine ⟨h.closed, h.free, fun j works => ?_, fun j works => ?_, fun j waits => ?_, h.nodup,
    fun j _ => .inl done⟩
  · rw [free] at works
    cases works
  · exact h.working j (of_update works nofun).2
  · rw [h.free free] at waits
    cases waits

theorem not_working (h : Serves g stands) (own : g.worker = some k) (j : Nat) :
    Function.update stands k .gone j ≠ .working := by
  intro works
  obtain ⟨same, works⟩ := of_update works nofun
  exact same (unique (h.working j works) own)

/-- Who is still at the guard once the call that has the turn is gone waits, or finds it closed. -/
theorem still_here (h : Serves g stands) (own : g.worker = some k) {j : Nat}
    (here : Function.update stands k .gone j = .here) : g.done = true ∨ j ∈ g.waiting := by
  obtain ⟨same, here⟩ := of_update here nofun
  rcases h.here j here with done | works | waits
  · exact .inl done
  · exact absurd (unique works own) same
  · exact .inr waits

/-- The body of the call `k` runs to completion, which closes the guard for good. -/
theorem completes (h : Serves g stands) (works : stands k = .working) :
    Serves g.complete.2 (Function.update stands k .gone) where
  closed _ := rfl
  free _ := rfl
  turn := nofun
  working j works' := absurd works' (h.not_working (h.working k works) j)
  waiting := nofun
  nodup := .nil
  here _ _ := .inl rfl

theorem frees (h : Serves g stands) (own : g.worker = some k) (alone : g.waiting = []) :
    Serves { g with worker := none } (Function.update stands k .gone) where
  closed _ := rfl
  free _ := alone
  turn := nofun
  working j works := absurd works (h.not_working own j)
  waiting j waits := by simp [alone] at waits
  nodup := h.nodup
  here j here := (h.still_here own here).imp_right fun waits => by simp [alone] at waits

/-- The call that has the turn goes, and the first one that waits has it now, so nobody is left
behind. -/
theorem hands (h : Serves g stands) (own : g.worker = some k) {next : Nat} {rest : List Nat}
    (queue : g.waiting = next :: rest) :
    Serves { g with worker := some next, waiting := rest } (Function.update stands k .gone) := by
  have order := h.nodup
  rw [queue, List.nodup_cons] at order
  -- Whoever waits is not the call that goes.
  have waiting : ∀ j ∈ next :: rest, Function.update stands k .gone j = .here := by
    intro j waits
    obtain ⟨here, turn⟩ := h.waiting j (queue ▸ waits)
    have same : j ≠ k := by
      rintro rfl
      exact turn own
    rwa [Function.update_of_ne same]
  refine ⟨fun done => ?_, nofun, ?_, ?_, ?_, order.2, ?_⟩
  · exact absurd (done.symm.trans (h.isOpen own)) nofun
  · intro j turn
    obtain rfl : next = j := Option.some.inj turn
    exact .inl (waiting next List.mem_cons_self)
  · intro j works
    exact absurd works (h.not_working own j)
  · intro j waits
    refine ⟨waiting j (List.mem_cons_of_mem next waits), fun turn => order.1 ?_⟩
    rwa [Option.some.inj turn]
  · intro j here
    refine (h.still_here own here).imp_right fun waits => ?_
    rw [queue] at waits
    exact (List.mem_cons.1 waits).imp_left fun first => congrArg some first.symm

/-- A call that does not have the turn goes, and does not wait for it any more. -/
theorem quits (h : Serves g stands) (other : g.worker ≠ some k) :
    Serves { g with waiting := g.waiting.filter (· != k) } (Function.update stands k .gone) := by
  refine ⟨h.closed, fun free => ?_, ?_, ?_, ?_, h.nodup.filter _, ?_⟩
  · simp [h.free free]
  · -- Whoever has the turn, works or waits is still there, as it is another call.
    intro j turn
    have same : j ≠ k := by
      rintro rfl
      exact other turn
    rw [Function.update_of_ne same]
    exact h.turn j turn
  · intro j works
    exact h.working j (of_update works nofun).2
  · intro j waits
    obtain ⟨waits, same⟩ := List.mem_filter.1 waits
    rw [Function.update_of_ne (by simpa using same)]
    exact h.waiting j waits
  · intro j here
    obtain ⟨same, here⟩ := of_update here nofun
    rcases h.here j here with done | works | waits
    · exact .inl done
    · exact .inr (.inl works)
    · exact .inr (.inr (List.mem_filter.2 ⟨waits, by simpa using same⟩))

/-- A call goes without having returned, and the guard serves those that are still there. -/
theorem leaves (h : Serves g stands) :
    Serves (g.withdraw k).2 (Function.update stands k .gone) := by
  rcases g.withdraw_cases k with ⟨own, alone, leaves⟩ | ⟨next, rest, own, queue, leaves⟩ |
    ⟨other, leaves⟩
  · rw [leaves]
    exact h.frees own alone
  · rw [leaves]
    exact h.hands own queue
  · rw [leaves]
    exact h.quits other

end Serves

end Crowd
end Vigil
