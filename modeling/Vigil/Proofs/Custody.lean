import Mathlib.Data.List.Induction
import Vigil.ClusterInfo
import Vigil.Guard

/-!
# How long credentials are held

Calls to the cluster-info observer may overlap. Of a start, other calls see two steps: first it
notes the facts, then it stores the access. A cleanup comes to a guard, and the caller that works
forgets the access before the guard lets it and the others go. The access is forgotten once only, so
credentials outlive a cleanup that has returned exactly if a start stores them later than that.

The module introduces:

* `Custody`, the observer with the calls that are under way, and `Custody.Event`, a step of one of
  them;
* `Custody.Sound`, the invariant of all interleavings;
* `Custody.StoredLate`, when a start has stored its access after cleanup has forgotten it.
-/

namespace Vigil

namespace ClusterInfo

/-- The first step of a start: the observer notes the facts about `access`, but not yet its
credentials. -/
def note (c : ClusterInfo) (access : ClusterAccess) : ClusterInfo :=
  { c with facts := some access.facts }

/-- The second step of a start: the observer keeps `access`. -/
def keep (c : ClusterInfo) (access : ClusterAccess) : ClusterInfo :=
  { c with access := some access }

/-- What the caller that cleans up does in the body of the guard: it forgets the access. -/
def forget (c : ClusterInfo) : ClusterInfo := { c with access := none }

theorem start_eq (c : ClusterInfo) (access : ClusterAccess) :
    c.start access = (c.note access).keep access := rfl

end ClusterInfo

/-- The observer and the calls to it that are under way, between any two steps of theirs. -/
structure Custody where
  memory : ClusterInfo := {}
  guard : Guard := {}
  /-- Whether the caller that cleans up has forgotten the access. -/
  forgotten : Bool := false
  /-- The accesses of the starts that have noted the facts and nothing else. -/
  starting : List ClusterAccess := []
  returned : List Nat := []
  files : FileTree := {}

namespace Custody

/-- A step of a call, which other calls see as a whole. Between two steps of one call any steps of
others may come. -/
inductive Event where
  /-- A start notes the facts about its access. -/
  | notes (access : ClusterAccess)
  /-- One of the starts under way stores its access and returns. -/
  | stores (start : Nat)
  /-- The file of the observer is written. -/
  | writes (dir suffix : String) (final : Timeline) (resources : Resources)
  | comes (caller : Nat)
  | forgets
  /-- The caller that cleans up returns, and those that wait for it return as well. -/
  | finishes
  /-- A caller that waits is stopped. The one that cleans up never waits. -/
  | stops (caller : Nat)

/-- What a step does. Steps that no call can take where `c` stands do nothing. -/
def step (c : Custody) : Event → Custody
  | .notes access =>
    { c with memory := c.memory.note access, starting := c.starting ++ [access] }
  | .stores start =>
    match c.starting[start]? with
    | some access =>
      { c with memory := c.memory.keep access, starting := c.starting.eraseIdx start }
    | none => c
  | .writes dir suffix final resources =>
    { c with files := (c.memory.store c.files dir suffix final resources).2 }
  | .comes caller =>
    match c.guard.enter caller with
    | (.works, guard) => { c with guard, forgotten := false }
    | (.waits, guard) => { c with guard }
    | (.passes, guard) => { c with guard, returned := c.returned ++ [caller] }
  | .forgets =>
    if c.guard.worker.isSome ∧ c.forgotten = false then
      { c with memory := c.memory.forget, forgotten := true }
    else c
  | .finishes =>
    match c.guard.worker with
    | some worker =>
      if c.forgotten then
        { c with
          memory := { c.memory with cleaned := true }
          guard := c.guard.complete.2
          returned := c.returned ++ worker :: c.guard.complete.1 }
      else c
    | none => c
  | .stops caller =>
    if c.guard.worker = some caller then c else { c with guard := (c.guard.withdraw caller).2 }

/-- The observer after `events`, from its beginning on. -/
def after (events : List Event) : Custody := events.foldl step {}

theorem after_concat (events : List Event) (e : Event) :
    after (events ++ [e]) = (after events).step e := by
  simp [after]

/-! ## What holds of all interleavings -/

/-- The invariant of `c.forgotten`: cleanup forgets the access once, before it returns for the first
time. -/
structure Sound (c : Custody) : Prop where
  /-- Before anyone cleans up, nothing is forgotten. -/
  fresh : c.guard.done = false → c.guard.worker = none → c.forgotten = false
  done : c.guard.done = true → c.forgotten = true ∧ c.guard.worker = none
  returned : c.returned ≠ [] → c.guard.done = true
  cleaned : c.memory.cleaned = c.guard.done

namespace Sound

variable {c : Custody}

theorem new : Sound {} where
  fresh _ _ := rfl
  done := nofun
  returned none := absurd rfl none
  cleaned := rfl

theorem step (h : Sound c) (e : Event) : Sound (c.step e) := by
  cases e with
  | notes access => exact ⟨h.fresh, h.done, h.returned, h.cleaned⟩
  | writes dir suffix final resources => exact ⟨h.fresh, h.done, h.returned, h.cleaned⟩
  | stores start =>
    dsimp only [Custody.step]
    split
    · exact ⟨h.fresh, h.done, h.returned, h.cleaned⟩
    · exact h
  | comes caller =>
    dsimp only [Custody.step]
    rcases c.guard.enter_cases caller with ⟨done, passes⟩ | ⟨going, -, works⟩ | ⟨-, -, waits⟩
    · rw [passes]
      exact ⟨h.fresh, h.done, fun _ => done, h.cleaned⟩
    · -- The caller begins to clean up, and has forgotten nothing yet.
      rw [works]
      exact ⟨fun _ _ => rfl, fun done => absurd done (by simp [going]), h.returned, h.cleaned⟩
    · rw [waits]
      exact ⟨h.fresh, h.done, h.returned, h.cleaned⟩
  | forgets =>
    dsimp only [Custody.step]
    split
    · next works =>
      refine ⟨fun _ free => ?_, fun done => ?_, h.returned, h.cleaned⟩
      · have idle : c.guard.worker = none := free
        simp [idle] at works
      · exact ⟨rfl, (h.done done).2⟩
    · exact h
  | finishes =>
    dsimp only [Custody.step]
    split
    · split
      · next forgotten => exact ⟨nofun, fun _ => ⟨forgotten, rfl⟩, fun _ => rfl, rfl⟩
      · exact h
    · exact h
  | stops caller =>
    dsimp only [Custody.step]
    split
    · exact h
    · next other =>
      have worker := Guard.worker_withdraw other
      have done := Guard.done_withdraw c.guard caller
      refine ⟨?_, ?_, ?_, ?_⟩
      · rw [done, worker]
        exact h.fresh
      · rw [done, worker]
        exact h.done
      · rw [done]
        exact h.returned
      · rw [done]
        exact h.cleaned

end Sound

theorem sound_after (events : List Event) : Sound (after events) := by
  induction events using List.reverseRecOn with
  | nil => exact .new
  | append_singleton events e ih =>
    rw [after_concat]
    exact ih.step e

section
variable {c : Custody} {e : Event}

theorem forgotten_step (h : Sound c) (other : e ≠ .forgets) :
    (c.step e).forgotten = c.forgotten := by
  cases e with
  | notes | writes => rfl
  | forgets => exact absurd rfl other
  | stores start =>
    dsimp only [step]
    split <;> rfl
  | comes caller =>
    dsimp only [step]
    rcases c.guard.enter_cases caller with ⟨-, passes⟩ | ⟨going, free, works⟩ | ⟨-, -, waits⟩
    · rw [passes]
    · -- The first caller that cleans up finds nothing forgotten.
      rw [works]
      exact (h.fresh going free).symm
    · rw [waits]
  | finishes =>
    dsimp only [step]
    split
    · split <;> rfl
    · rfl
  | stops caller =>
    dsimp only [step]
    split <;> rfl

theorem access_step (first : ∀ start, e ≠ .stores start) (second : e ≠ .forgets) :
    (c.step e).memory.access = c.memory.access := by
  cases e with
  | notes | writes => rfl
  | stores start => exact absurd rfl (first start)
  | forgets => exact absurd rfl second
  | comes caller =>
    dsimp only [step]
    split <;> rfl
  | finishes =>
    dsimp only [step]
    split
    · split <;> rfl
    · rfl
  | stops caller =>
    dsimp only [step]
    split <;> rfl

end

/-! ## What the steps make up -/

/-- A start that nothing comes between is `ClusterInfo.start`, so its two steps are a split of what
the program does. -/
theorem memory_start (c : Custody) (access : ClusterAccess) :
    ((c.step (.notes access)).step (.stores c.starting.length)).memory = c.memory.start access := by
  simp [step, ClusterInfo.start_eq]

/-- A cleanup that nothing comes between is `ClusterInfo.cleanup`, as long as nobody else works. -/
theorem memory_cleanup {c : Custody} (h : Sound c) (free : c.guard.worker = none) (caller : Nat) :
    (((c.step (.comes caller)).step .forgets).step .finishes).memory = c.memory.cleanup := by
  have same := h.cleaned
  cases done : c.guard.done with
  | true =>
    rw [done] at same
    have passes := Guard.enter_of_done done caller
    simp [step, passes, free, ClusterInfo.cleanup, same]
  | false =>
    rw [done] at same
    have works : c.guard.enter caller = (.works, { c.guard with worker := some caller }) := by
      simp [Guard.enter, done, free]
    simp [step, works, ClusterInfo.cleanup, ClusterInfo.forget, same]

/-! ## Late accesses -/

/-- A start stores its access at `c` although cleanup has forgotten the one that was there. -/
def StoresLate (c : Custody) : Event → Prop
  | .stores start => c.forgotten = true ∧ start < c.starting.length
  | _ => False

/-- One of `events` stored an access late, after cleanup had forgotten the one that was there. -/
def StoredLate (events : List Event) : Prop :=
  ∃ before e rest, events = before ++ e :: rest ∧ (after before).StoresLate e

theorem storedLate_concat (events : List Event) (e : Event) :
    StoredLate (events ++ [e]) ↔ StoredLate events ∨ (after events).StoresLate e := by
  constructor
  · rintro ⟨before, late, rest, same, stores⟩
    -- The late step is the last one, or the last one comes after it.
    rcases List.eq_nil_or_concat rest with rfl | ⟨rest, last, rfl⟩
    · obtain ⟨rfl, last⟩ := List.append_inj' same rfl
      cases last
      exact .inr stores
    · left
      refine ⟨before, late, rest, ?_, stores⟩
      rw [List.concat_eq_append, ← List.cons_append, ← List.append_assoc] at same
      exact (List.append_inj' same rfl).1
  · rintro (⟨before, late, rest, rfl, stores⟩ | stores)
    · exact ⟨before, late, rest ++ [e], by simp, stores⟩
    · exact ⟨events, e, [], rfl, stores⟩

/-- The invariant that ties what is held to how it came there: until the access is forgotten none is
late, and from then on only a late one is held. -/
structure Kept (events : List Event) : Prop where
  before : (after events).forgotten = false → ¬StoredLate events
  since : (after events).forgotten = true →
    ((after events).memory.holdsCredentials = true ↔ StoredLate events)

namespace Kept

variable {events : List Event} {e : Event}

theorem new : Kept [] where
  before := by
    rintro - ⟨before, e, rest, same, -⟩
    simp at same
  since := nofun

theorem quiet (h : Kept events) (access : ((after events).step e).memory.access =
      (after events).memory.access)
    (forgotten : ((after events).step e).forgotten = (after events).forgotten)
    (early : ¬(after events).StoresLate e) : Kept (events ++ [e]) where
  before := by
    rw [after_concat, forgotten, storedLate_concat]
    intro going
    exact not_or.2 ⟨h.before going, early⟩
  since := by
    rw [after_concat, forgotten, storedLate_concat, or_iff_left early]
    unfold ClusterInfo.holdsCredentials
    rw [access]
    exact h.since

theorem stores (h : Kept events) (start : Nat) : Kept (events ++ [.stores start]) := by
  have forgotten : ((after events).step (.stores start)).forgotten = (after events).forgotten :=
    forgotten_step (sound_after events) nofun
  by_cases under : start < (after events).starting.length
  · have held : ((after events).step (.stores start)).memory.holdsCredentials = true := by
      simp only [Custody.step, List.getElem?_eq_getElem under]
      rfl
    refine ⟨?_, ?_⟩
    all_goals rw [after_concat, forgotten, storedLate_concat]
    · -- It is early if nothing has been forgotten, and late otherwise.
      intro going
      refine not_or.2 ⟨h.before going, fun late => ?_⟩
      have gone := late.1
      rw [going] at gone
      cases gone
    · intro gone
      exact iff_of_true held (.inr ⟨gone, under⟩)
  · -- No such start is under way.
    refine h.quiet ?_ forgotten fun late => under late.2
    simp only [Custody.step, List.getElem?_eq_none (Nat.not_lt.1 under)]

theorem forgets (h : Kept events) : Kept (events ++ [.forgets]) := by
  by_cases works : (after events).guard.worker.isSome = true ∧ (after events).forgotten = false
  · have now : (after events).step .forgets =
        { after events with memory := (after events).memory.forget, forgotten := true } :=
      if_pos works
    have early : ¬StoredLate (events ++ [.forgets]) := by
      rw [storedLate_concat]
      exact not_or.2 ⟨h.before works.2, id⟩
    refine ⟨fun _ => early, fun _ => iff_of_false ?_ early⟩
    rw [after_concat, now]
    exact Bool.false_ne_true
  · have same : (after events).step .forgets = after events := if_neg works
    exact h.quiet (by rw [same]) (by rw [same]) id

theorem step (h : Kept events) (e : Event) : Kept (events ++ [e]) := by
  have sound := sound_after events
  cases e with
  | stores start => exact h.stores start
  | forgets => exact h.forgets
  | notes | writes | comes | finishes | stops =>
    exact h.quiet (access_step nofun nofun) (forgotten_step sound nofun) id

end Kept

theorem kept_after (events : List Event) : Kept events := by
  induction events using List.reverseRecOn with
  | nil => exact .new
  | append_singleton events e ih => exact ih.step e

theorem not_forgotten_of_calm {events : List Event} (calm : ∀ caller, .comes caller ∉ events) :
    (after events).guard.worker = none ∧ (after events).forgotten = false := by
  induction events using List.reverseRecOn with
  | nil => exact ⟨rfl, rfl⟩
  | append_singleton events e ih =>
    obtain ⟨free, going⟩ := ih fun caller member => calm caller (List.mem_append_left _ member)
    rw [after_concat]
    cases e with
    | comes caller => exact absurd (by simp) (calm caller)
    | notes | writes => exact ⟨free, going⟩
    | stores start =>
      dsimp only [step]
      split <;> exact ⟨free, going⟩
    | forgets | finishes => simp [step, free, going]
    | stops caller =>
      dsimp only [step]
      split
      · exact ⟨free, going⟩
      · next other => exact ⟨(Guard.worker_withdraw other).trans free, going⟩

/-- A cleanup that nobody asks for before the starts have stored their accesses releases all of
them. -/
theorem released_of_calm {early late : List Event} (calm : ∀ caller, .comes caller ∉ early)
    (settled : ∀ start, .stores start ∉ late) {caller : Nat}
    (returned : caller ∈ (after (early ++ late)).returned) :
    (after (early ++ late)).memory.holdsCredentials = false := by
  have sound := sound_after (early ++ late)
  have gone := (sound.done (sound.returned (List.ne_nil_of_mem returned))).1
  rw [← Bool.not_eq_true, (kept_after _).since gone]
  rintro ⟨before, e, rest, same, stores⟩
  cases e with
  | stores start =>
    rcases List.append_eq_append_iff.1 same with ⟨middle, -, right⟩ | ⟨middle, left, -⟩
    · exact settled start (by simp [right])
    · -- The start belongs to the first part, where nothing is forgotten.
      have going := not_forgotten_of_calm fun caller member =>
        calm caller (left ▸ List.mem_append_left middle member)
      have late := stores.1
      rw [going.2] at late
      cases late
  | _ => exact stores

/-- Once a cleanup has returned, the observer holds credentials exactly if a start has stored them
after cleanup had forgotten the access (`StoredLate`), however the calls overlapped. -/
theorem holdsCredentials_iff_storedLate (events : List Event) {caller : Nat}
    (returned : caller ∈ (after events).returned) :
    (after events).memory.holdsCredentials = true ↔ StoredLate events := by
  have sound := sound_after events
  have done := sound.returned (List.ne_nil_of_mem returned)
  exact (kept_after events).since (sound.done done).1

/-- A start and a forced cleanup overlap, and the start is first to store its access. -/
def earlyStart : List Event :=
  [.notes ⟨"", some "token", none, none, none, false⟩, .comes 1, .stores 0, .forgets, .finishes,
    .comes 2]

/-- In `earlyStart` nobody was late, since the observer holds no credentials after it. -/
theorem holdsCredentials_iff_of_earlyStart :
    (2 ∈ (after earlyStart).returned ∧ (after earlyStart).memory.holdsCredentials = false) ∧
      ¬StoredLate earlyStart := by
  have returned : 2 ∈ (after earlyStart).returned := by decide +kernel
  have released : (after earlyStart).memory.holdsCredentials = false := by decide +kernel
  refine ⟨⟨returned, released⟩, fun late => ?_⟩
  have held := (holdsCredentials_iff_storedLate earlyStart returned).2 late
  rw [released] at held
  cases held

/-- The forced cleanup is over before the start begins, so that the last cleanup finds its guard
used up. -/
def lateStart : List Event :=
  [.comes 1, .forgets, .finishes, .notes ⟨"", some "token", none, none, none, false⟩, .stores 0,
    .comes 2]

/-- After `lateStart` both cleanups have returned and no start is under way, but the token is still
held. -/
theorem holdsCredentials_lateStart :
    (after lateStart).returned = [1, 2] ∧ (after lateStart).starting = [] ∧
      (after lateStart).memory.holdsCredentials = true := by
  decide +kernel

end Custody
end Vigil
