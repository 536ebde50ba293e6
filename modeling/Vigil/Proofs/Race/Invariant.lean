import Vigil.Proofs.Conduct
import Vigil.Proofs.Race.Cleanup
import Vigil.Proofs.Race.Site
import Vigil.Proofs.Schedule.Taking

/-!
# What holds of every race

Each step of a race happens to one call at its guard, to the join of one cleanup or to neither, so
the invariants of the guards and of the cleanups carry over to races as a whole. A race that is in
time stops no call.

The module introduces:

* `IsWorked`, that a record comes from a working phase and not from a cleanup;
* `Race.Sound`, the invariant of races that are in time.
-/

namespace Vigil.Schedule

/-! ## Returning -/

theorem perform_reportOf (p : Run) (own : Bool) (outcomes : List CallOutcome) (scene : Stage)
    (first : own = true → p.orchestrator.state ≠ .cleanedUp) :
    p.perform (reportOf own (answering outcomes scene)) =
      (.ok (p.cleanupSettlement outcomes).records,
        if own then p.cleanedWith outcomes scene
        else { p with scene := p.cleanupScene outcomes scene }) := by
  cases own with
  | false => exact p.perform_forceCleanup (answering outcomes scene)
  | true =>
    have cleanup := p.perform_cleanup (answering outcomes scene) (first rfl)
    have joined : (answering outcomes scene).join
        (p.orchestrator.cleanupRequest p.scene.started) p.scene = (some outcomes, scene) := rfl
    rw [joined] at cleanup
    simp [reportOf, Progress.perform_bind, cleanup, Progress.cleanedWith, Except.map]

/-! ## Working -/

/-- The record comes from a call of a working phase, not from one of cleanup. -/
def IsWorked (record : Record) : Prop :=
  ∃ request outcomes, request.call.phase ≠ .cleanup ∧ record ∈ recordsOfRound request outcomes

/-- What a working phase of the orchestrator leaves as it is, which is all that the cleanups of a
race depend on. -/
structure Worked (p q : Run) : Prop where
  world : q.world = p.world
  origin : q.scene.origin = p.scene.origin
  clock : q.scene.clock = p.scene.clock
  started : q.scene.started = p.scene.started
  observers : q.orchestrator.observers = p.orchestrator.observers
  limits : q.orchestrator.limits = p.orchestrator.limits
  results : ∃ added, q.orchestrator.results = p.orchestrator.results ++ added ∧
    ∀ record ∈ added, IsWorked record
  /-- It does not clean up. -/
  state : q.orchestrator.state = .cleanedUp → p.orchestrator.state = .cleanedUp

theorem settled_ne_cleanedUp {phase : Phase} (working : phase ≠ .cleanup) :
    phase.settled ≠ .cleanedUp := by
  cases phase with
  | cleanup => exact absurd rfl working
  | _ => exact nofun

namespace Worked

variable {p q : Run}

theorem refl (p : Run) : Worked p p :=
  ⟨rfl, rfl, rfl, rfl, rfl, rfl, ⟨[], (List.append_nil _).symm, nofun⟩, id⟩

theorem begun (p : Run) {phase : Phase} (working : phase ≠ .cleanup) : Worked p (p.begun phase) :=
  { refl p with state := fun cleaned => absurd cleaned (settled_ne_cleanedUp working) }

theorem settledWith (p : Run) {call : Call} (working : call.phase ≠ .cleanup)
    (outcomes : List CallOutcome) : Worked p (p.settledWith call outcomes p.scene) where
  world := rfl
  origin := rfl
  clock := rfl
  started := rfl
  observers := rfl
  limits := rfl
  results := by
    refine ⟨_, rfl, fun record made => ?_⟩
    have records := records_ofCalls_eq (p.requestOf call) outcomes
    exact ⟨_, _, working, records ▸ made⟩
  state cleaned := absurd cleaned (settled_ne_cleanedUp working)

theorem settle (h : Worked p q) (c : Command) (settlement : Option Settlement) :
    Worked p (c.settle settlement q) where
  world := (Command.inner_settle ..).trans h.world
  origin := (Command.origin_settle ..).trans h.origin
  clock := (Command.clock_settle ..).trans h.clock
  started := (Command.started_settle ..).trans h.started
  observers := (Command.observers_settle ..).trans h.observers
  limits := (Command.limits_settle ..).trans h.limits
  results := by
    rw [Command.results_settle]
    exact h.results
  state cleaned := h.state ((Command.state_settle ..).symm.trans cleaned)

end Worked

theorem worked_conduct (p : Run) {c : Command} (working : c.phase ≠ .cleanup)
    (outcomes : List CallOutcome) :
    Worked p (p.perform (c.conduct (answering outcomes p.scene))).2 := by
  have commanded := commanded_conduct (answering outcomes p.scene) c p
  generalize p.perform (c.conduct (answering outcomes p.scene)) = performed at commanded ⊢
  obtain ⟨answer, q⟩ := performed
  dsimp only at commanded ⊢
  cases commanded with
  | refused => exact .refl p
  | skipped => exact (Worked.begun p working).settle c none
  | unjoined scene _ _ _ joins => cases joins
  | joined outcomes' scene _ _ _ joins =>
    cases joins
    have called : (c.call p).phase ≠ .cleanup := by
      rw [c.phase_call]
      exact working
    exact (Worked.settledWith p called outcomes).settle c _
  | again cleanup => exact absurd cleanup working
  | uncleaned _ cleanup => exact absurd cleanup working
  | cleaned _ _ cleanup => exact absurd cleanup working

namespace Race

/-- What the orchestrator's own cleanup has added to the results, once it has returned. -/
def ownReport (r : Race) : Option (List Record) :=
  (r.own.bind fun k => r.cleanups[k]?).bind Cleanup.report

/-- The invariant of a race of the cleanups of `run`: every guard is sound for the calls that meet
at it, and every cleanup for its round. -/
structure Sound (run : Run) (r : Race) : Prop where
  /-- Every cleanup calls all observers. -/
  request : r.request = run.orchestrator.cleanupRequest true
  origin : r.run.scene.origin = run.scene.origin
  rounds : r.run.world.rounds.length = r.first + r.cleanups.length
  since : ∀ c ∈ r.cleanups, c.since ≤ r.run.scene.clock
  sites : ∀ i, (r.sites i).Sound fun k => r.status? k i
  cleanups : ∀ (k : Nat) (c : Cleanup), r.cleanups[k]? = some c →
    c.Sound run.scene.origin (run.orchestrator.cleanupRequest true) r.run.world (r.first + k)
  own : ∀ k ∈ r.own, k < r.cleanups.length
  /-- Working phases add to the results, and after them only the orchestrator's own cleanup does. -/
  results : ∃ worked, (∀ record ∈ worked, IsWorked record) ∧
    r.run.orchestrator.results = run.orchestrator.results ++ worked ++ r.ownReport.getD []
  cleaned : r.run.orchestrator.state = .cleanedUp → r.ownReport.isSome = true

theorem request_congr {r r' : Race}
    (observers : r'.run.orchestrator.observers = r.run.orchestrator.observers)
    (limits : r'.run.orchestrator.limits = r.run.orchestrator.limits)
    (started : r'.run.scene.started = r.run.scene.started) : r'.request = r.request := by
  simp only [request, Orchestrator.cleanupRequest, Orchestrator.cleanupTargets, observers, limits,
    started]

theorem task?_move (s : Stage) {m : Move} {n : Nat} (other : m.round? ≠ some n) (i : Nat) :
    (s.move m).inner.task? n i = s.inner.task? n i := by
  have change (round observer : Nat) (f : Task → Task) (ne : round ≠ n) :
      (s.inner.change round observer f).task? n i = s.inner.task? n i := by
    simp [World.task?_change, ne]
  cases m with
  | enter round observer => exact change round observer _ fun same => other (congrArg some same)
  | finish round observer => exact change round observer _ fun same => other (congrArg some same)
  | stop round observer => exact change round observer _ fun same => other (congrArg some same)
  | record interval =>
    obtain ⟨_, _, same⟩ := s.exists_move_record interval
    rw [same]
    rfl
  | _ => rfl

/-! ## Steps of a call -/

theorem status?_setTask (r : Race) (k i : Nat) (f : Task → Task) (κ ι : Nat) :
    (r.setTask k i f).status? κ ι =
      (r.run.world.task? (r.first + κ) ι).map fun t =>
        (if k = κ ∧ i = ι then f t else t).status := by
  have task := World.task?_change r.run.world (r.first + k) i f (r.first + κ) ι
  have status : (r.setTask k i f).status? κ ι =
      ((r.run.world.change (r.first + k) i f).task? (r.first + κ) ι).map Task.status := rfl
  rw [status, task, Option.map_map]
  simp only [Nat.add_left_cancel_iff, Function.comp_def]

theorem calls_setTask (r : Race) (k i : Nat) {f : Task → Task} {x y : Status}
    (was : r.status? k i = some x) (turns : ∀ t : Task, t.status = x → (f t).status = y) :
    (fun κ => (r.setTask k i f).status? κ i) =
      Function.update (fun κ => r.status? κ i) k (some y) := by
  funext κ
  rw [status?_setTask]
  by_cases same : κ = k
  · subst same
    obtain ⟨t, ht, hx⟩ := Option.map_eq_some_iff.1 was
    rw [Function.update_self, ht, Option.map_some, if_pos ⟨rfl, rfl⟩, turns t hx]
  · rw [Function.update_of_ne same]
    simp only [Ne.symm same, false_and, if_false]
    rfl

theorem sites_setSite_self (r : Race) (i : Nat) (site : Site) : (r.setSite i site).sites i = site :=
  Function.update_self ..

theorem sites_setSite_of_ne (r : Race) {i ι : Nat} (site : Site) (other : ι ≠ i) :
    (r.setSite i site).sites ι = r.sites ι :=
  Function.update_of_ne other ..

theorem calls_setTask_other (r : Race) (k i : Nat) (f : Task → Task) {ι : Nat} (other : ι ≠ i) :
    (fun κ => (r.setTask k i f).status? κ ι) = fun κ => r.status? κ ι := by
  funext κ
  rw [status?_setTask]
  simp only [Ne.symm other, and_false, if_false]
  rfl

/-! ## Asking for a further cleanup -/

theorem ledger_ask (r : Race) (own : Bool) :
    (r.ask own).run.world.ledger = r.run.world.ledger ++ [(r.request, none)] := by
  simp [ask, Run.updateScene, Run.world, Stage.spawn, Stage.updateWorld, World.ledger]

section Ask

variable {r : Race} (rounds : r.run.world.rounds.length = r.first + r.cleanups.length) (own : Bool)
include rounds

theorem task?_ask_of_ne {k : Nat} (other : k ≠ r.cleanups.length) (i : Nat) :
    (r.ask own).run.world.task? (r.first + k) i = r.run.world.task? (r.first + k) i :=
  Stage.task?_spawn r.request r.run.scene i fun same =>
    other (Nat.add_left_cancel (same.trans rounds))

theorem task?_ask_new (i : Nat) :
    (r.ask own).run.world.task? (r.first + r.cleanups.length) i =
      r.request.targets[i]?.map fun _ => {} := by
  rw [← rounds]
  exact Stage.task?_spawn_new r.request r.run.scene i

theorem calls_ask (i k : Nat) :
    (r.ask own).status? k i = r.status? k i ∨
      r.status? k i = none ∧ (r.ask own).status? k i = some .fresh := by
  by_cases same : k = r.cleanups.length
  · subst same
    have absent : r.status? r.cleanups.length i = none := by
      have round : r.run.world.rounds[r.first + r.cleanups.length]? = none :=
        List.getElem?_eq_none (Nat.le_of_eq rounds)
      simp [status?, World.task?, round]
    have made := congrArg (Option.map Task.status) (task?_ask_new rounds own i)
    cases target : r.request.targets[i]? with
    | none =>
      rw [target] at made
      exact .inl (made.trans absent.symm)
    | some o =>
      rw [target] at made
      exact .inr ⟨absent, made⟩
  · exact .inl (congrArg (Option.map Task.status) (task?_ask_of_ne rounds own same i))

theorem sound_ask_new (origin : Nat) :
    Cleanup.Sound origin r.request (r.ask own).run.world (r.first + r.cleanups.length)
      { since := r.run.scene.clock } where
  asked := by
    refine ⟨none, ?_⟩
    have length : r.run.world.ledger.length = r.first + r.cleanups.length := by
      rw [World.length_ledger, rounds]
    rw [ledger_ask, ← length, List.getElem?_concat_length]
  kept := by
    rw [← rounds]
    exact Stage.kept_spawn r.request r.run.scene
  waits _ hj := absurd hj (Option.not_mem_none _)
  steady _ hj := absurd hj (Option.not_mem_none _)
  reported _ reports := absurd reports (Option.not_mem_none _)

end Ask

theorem ownReport_ask {r : Race} {own : Bool} (free : own = true → r.own = none)
    (known : ∀ k ∈ r.own, k < r.cleanups.length) : (r.ask own).ownReport = r.ownReport := by
  cases own with
  | true => simp [ownReport, ask, free rfl]
  | false =>
    cases same : r.own with
    | none => simp [ownReport, ask, same]
    | some k => simp [ownReport, ask, same, List.getElem?_append_left (known k same)]

/-! ## Turns of a cleanup -/

theorem getElem?_modify_cases {α : Type} {l : List α} {k κ : Nat} {f : α → α} {b : α}
    (h : (l.modify k f)[κ]? = some b) :
    (κ = k ∧ ∃ a, l[k]? = some a ∧ b = f a) ∨ (κ ≠ k ∧ l[κ]? = some b) := by
  rw [List.getElem?_modify] at h
  obtain ⟨a, ha, same⟩ := Option.map_eq_some_iff.1 h
  by_cases here : k = κ
  · subst here
    exact .inl ⟨rfl, a, ha, by simpa using same.symm⟩
  · rw [if_neg here] at same
    exact .inr ⟨Ne.symm here, by rw [ha, ← same]⟩

theorem forall_mem_modify {α : Type} {p : α → Prop} {l : List α} (h : ∀ a ∈ l, p a) {f : α → α}
    (keeps : ∀ a, p a → p (f a)) (k : Nat) : ∀ a ∈ l.modify k f, p a := by
  intro b hb
  obtain ⟨κ, hκ⟩ := List.mem_iff_getElem?.1 hb
  rcases getElem?_modify_cases hκ with ⟨-, a, was, rfl⟩ | ⟨-, was⟩
  · exact keeps a (h a (List.mem_of_getElem? was))
  · exact h b (List.mem_of_getElem? was)

/-- The cleanup `c` returns and reports the records of its calls, and the orchestrator's own one
adds them to the results. -/
structure Left (r : Race) (k : Nat) (c : Cleanup) (outcomes : List CallOutcome) (q : Run) :
    Prop where
  leaves : r.leave k c outcomes =
    { r with
      run := q
      cleanups := r.cleanups.modify k fun c =>
        { c with report := some (recordsOfRound r.request (some outcomes)) } }
  world : q.world = (Stage.note (r.first + k) (some outcomes) r.run.scene).inner
  origin : q.scene.origin = r.run.scene.origin
  clock : q.scene.clock = r.run.scene.clock
  started : q.scene.started = r.run.scene.started
  observers : q.orchestrator.observers = r.run.orchestrator.observers
  limits : q.orchestrator.limits = r.run.orchestrator.limits
  results : q.orchestrator.results = r.run.orchestrator.results ++
    if r.own == some k then recordsOfRound r.request (some outcomes) else []
  state : q.orchestrator.state =
    if r.own == some k then .cleanedUp else r.run.orchestrator.state

theorem exists_left {r : Race} (k : Nat) (c : Cleanup) (outcomes : List CallOutcome)
    (first : r.own = some k → r.run.orchestrator.state ≠ .cleanedUp) :
    ∃ q, Left r k c outcomes q := by
  let scene := Stage.note (r.first + k) (some outcomes) r.run.scene
  let asked : Run := { r.run with scene := { r.run.scene with clock := c.since } }
  -- Only the clock is set back to when the cleanup was asked for, and its records do not depend on
  -- it.
  have made : (asked.cleanupSettlement outcomes).records =
      recordsOfRound r.request (some outcomes) :=
    records_ofCalls_eq r.request outcomes
  have performed := perform_reportOf asked (r.own == some k) outcomes scene
    fun own => first (eq_of_beq own)
  rw [made] at performed
  have leaves : r.leave k c outcomes =
      { r with
        run := if r.own == some k then asked.cleanedWith outcomes scene
          else { asked with scene := asked.cleanupScene outcomes scene }
        cleanups := r.cleanups.modify k fun c =>
          { c with report := some (recordsOfRound r.request (some outcomes)) } } := by
    rw [leave, performed]
  cases own : r.own == some k with
  | true =>
    rw [own, if_pos rfl] at leaves
    exact ⟨_, leaves, rfl, rfl, rfl, rfl, rfl, rfl, by rw [← made, own]; rfl, by rw [own]; rfl⟩
  | false =>
    rw [own, if_neg Bool.false_ne_true] at leaves
    exact ⟨_, leaves, rfl, rfl, rfl, rfl, rfl, rfl, by rw [own]; exact (List.append_nil _).symm,
      by rw [own]; rfl⟩

namespace Sound

variable {run : Run} {r : Race}

/-- The guards are sound as long as nothing happens to the calls that meet at them. -/
theorem sites_congr (h : Sound run r) {r' : Race} (sites : r'.sites = r.sites)
    (first : r'.first = r.first)
    (task : ∀ k i, r'.run.world.task? (r.first + k) i = r.run.world.task? (r.first + k) i)
    (i : Nat) : (r'.sites i).Sound fun k => r'.status? k i := by
  have calls : (fun k => r'.status? k i) = fun k => r.status? k i := by
    funext k
    rw [status?, first, task, status?]
  rw [sites, calls]
  exact h.sites i

theorem act (h : Sound run r) {k i : Nat} {f : Task → Task} {x y : Status} {site : Site}
    (moved : ∀ t : Task, t.Moved (f t)) (was : r.status? k i = some x)
    (turns : ∀ t : Task, t.status = x → (f t).status = y)
    (sound : site.Sound (Function.update (fun κ => r.status? κ i) k (some y))) :
    Sound run ((r.setTask k i f).setSite i site) := by
  have evolves : World.Evolves Task.Moved r.run.world (r.setTask k i f).run.world :=
    World.evolves_change Task.moved_refl moved r.run.world (r.first + k) i
  exact
    { request := h.request
      origin := h.origin
      rounds := evolves.length_eq.trans h.rounds
      since := h.since
      sites := fun ι => by
        -- The guard of each other observer sees the same calls as before.
        by_cases same : ι = i
        · subst same
          rw [sites_setSite_self]
          rw [← r.calls_setTask k ι was turns] at sound
          exact sound
        · have kept := h.sites ι
          rw [← r.calls_setTask_other k i f same] at kept
          rw [sites_setSite_of_ne _ site same]
          exact kept
      cleanups := fun κ c hc => (h.cleanups κ c hc).moved evolves
      own := h.own
      results := h.results
      cleaned := h.cleaned }

theorem ask (h : Sound run r) (own : Bool) (free : own = true → r.own = none) :
    Sound run (r.ask own) where
  request := h.request
  origin := h.origin
  rounds := by
    have one := congrArg List.length (ledger_ask r own)
    simp only [World.length_ledger, List.length_append, List.length_singleton] at one
    rw [one, h.rounds]
    simp [Race.ask, Nat.add_assoc]
  since c hc := by
    rcases List.mem_append.1 hc with hc | hc
    · exact h.since c hc
    · rw [List.mem_singleton.1 hc]
      exact Nat.le_refl r.run.scene.clock
  sites i := (h.sites i).asked (calls_ask h.rounds own i)
  cleanups k c hc := by
    -- The rounds of earlier cleanups stay where they are; that of the new one is the last.
    rcases Nat.lt_trichotomy k r.cleanups.length with lt | rfl | gt
    · have was : r.cleanups[k]? = some c := by
        rwa [Race.ask, List.getElem?_append_left lt] at hc
      refine (h.cleanups k c was).congr (task?_ask_of_ne h.rounds own (Nat.ne_of_lt lt)) ?_
      have lt : r.first + k < r.run.world.ledger.length := by
        rw [World.length_ledger, h.rounds]
        exact Nat.add_lt_add_left lt r.first
      rw [ledger_ask]
      exact List.getElem?_append_left lt
    · obtain rfl : { since := r.run.scene.clock } = c :=
        Option.some.inj (List.getElem?_concat_length.symm.trans hc)
      rw [← h.request]
      exact sound_ask_new h.rounds own run.scene.origin
    · have le := (List.getElem?_eq_some_iff.1 hc).1
      simp only [Race.ask, List.length_append, List.length_singleton] at le
      omega
  own k hk := by
    have grown : (r.ask own).cleanups.length = r.cleanups.length + 1 := by simp [Race.ask]
    rw [grown]
    cases own with
    | true =>
      obtain rfl : r.cleanups.length = k := Option.some.inj hk
      exact Nat.lt_succ_self _
    | false => exact Nat.lt_succ_of_lt (h.own k hk)
  results := by
    rw [ownReport_ask free h.own]
    exact h.results
  cleaned := by
    rw [ownReport_ask free h.own]
    exact h.cleaned

/-- A cleanup whose deadline has passed has only calls that have ended when it takes a turn, since
the turn is `Timely`. -/
theorem ended_of_late (h : Sound run r) {k : Nat} (timely : r.Timely (.turns k)) {c : Cleanup}
    (here : r.cleanups[k]? = some c) (late : c.isLate r.run.scene.clock = true) {i : Nat}
    (lt : i < r.request.targets.length) : (r.run.world.ending? (r.first + k) i).isSome = true := by
  obtain ⟨free, kept⟩ := timely k rfl c here late i lt
  simp only [canGo, Bool.or_eq_false_iff, decide_eq_false_iff_not] at kept
  rw [h.request] at lt
  rcases (h.cleanups k c here).cases lt with fresh | running | ⟨e, -, ended⟩
  · exact absurd (show r.status? k i = some .fresh from fresh) kept.1
  · -- A call that has come waits for a body at work, or the guard lets it pass.
    rcases (h.sites i).running k running with done | busy
    · simp [show r.status? k i = some .running from running, done] at kept
    · simp [free] at busy
  · rw [ended]
    rfl

theorem join (h : Sound run r) {k : Nat} {c : Cleanup} (here : r.cleanups[k]? = some c) {j : Join}
    (waits : Waits (run.orchestrator.cleanupRequest true).limits
      (run.orchestrator.cleanupRequest true).targets.length (r.first + k) r.run.world j)
    (steady :
      Join.Steady run.scene.origin (run.orchestrator.cleanupRequest true).limits c.since j) :
    Sound run { r with
      cleanups := r.cleanups.modify k fun c => { c with join := some j } } := by
  -- The cleanup has not returned, so nothing changes in what was reported.
  have reported : (r.own.bind fun κ =>
      (r.cleanups.modify k fun c => { c with join := some j })[κ]?).bind Cleanup.report =
      r.ownReport := by
    rw [ownReport]
    cases r.own with
    | none => rfl
    | some κ =>
      simp only [Option.bind_some, List.getElem?_modify]
      cases r.cleanups[κ]? with
      | none => rfl
      | some c => by_cases same : k = κ <;> simp [same]
  exact
    { h with
      rounds := by rw [List.length_modify]; exact h.rounds
      since := by
        refine forall_mem_modify h.since ?_ k
        exact fun _ le => le
      cleanups := fun κ c' hc' => by
        rcases getElem?_modify_cases hc' with ⟨rfl, c₀, was, rfl⟩ | ⟨-, was⟩
        · obtain rfl : c = c₀ := Option.some.inj (here.symm.trans was)
          exact (h.cleanups κ c here).join waits steady
        · exact h.cleanups κ c' was
      own := fun κ hκ => by rw [List.length_modify]; exact h.own κ hκ
      results := by rw [ownReport, reported]; exact h.results
      cleaned := by rw [ownReport, reported]; exact h.cleaned }

theorem turned (h : Sound run r) {k : Nat} (timely : r.Timely (.turns k)) {c : Cleanup}
    (here : r.cleanups[k]? = some c) (going : c.report = none) {j : Join} {stop : Option Nat}
    (turns : Stage.turn? r.request (r.first + k) r.run.scene c.join = some (j, stop)) :
    stop = none ∧ Sound run { r with
      cleanups := r.cleanups.modify k fun c => { c with join := some j } } := by
  have sound := h.cleanups k c here
  rw [← h.request] at sound
  have steady : stop = none ∧ Join.Steady run.scene.origin r.request.limits c.since j := by
    cases begun : c.join with
    | none =>
      rw [begun] at turns
      obtain ⟨j', started, same⟩ := Option.map_eq_some_iff.1 turns
      cases same
      rw [h.origin] at started
      exact ⟨rfl, .start (h.since c (List.mem_of_getElem? here)) started⟩
    | some j' =>
      rw [begun] at turns
      -- All calls that are awaited after the deadline have ended.
      refine (sound.steady j' begun).turn (fun late call waits => ?_) turns
      rw [(sound.waits j' begun).waiting, List.mem_range'_1] at waits
      refine h.ended_of_late timely here ?_ (by omega)
      simp [Cleanup.isLate, going, begun, late]
  obtain ⟨rfl, steady⟩ := steady
  have waits : Waits r.request.limits r.request.targets.length (r.first + k) r.run.world j :=
    Stage.waits_turn (s := r.run.scene) (fun _ => sound.kept) sound.waits turns
  rw [h.request] at waits steady
  exact ⟨rfl, h.join here waits steady⟩

theorem ownReport_modify {k : Nat} {c : Cleanup} (here : r.cleanups[k]? = some c)
    (records : List Record) :
    (r.own.bind fun κ =>
      (r.cleanups.modify k fun c => { c with report := some records })[κ]?).bind Cleanup.report =
      if r.own == some k then some records else r.ownReport := by
  rw [ownReport]
  cases r.own with
  | none => rfl
  | some κ =>
    simp only [Option.bind_some, List.getElem?_modify]
    by_cases same : κ = k
    · subst same
      simp [here]
    · cases r.cleanups[κ]? <;> simp [same, Ne.symm same]

theorem left (h : Sound run r) {k : Nat} {c : Cleanup} (here : r.cleanups[k]? = some c)
    (going : c.report = none) {j : Join} (begun : c.join = some j) {outcomes : List CallOutcome}
    (returns : j.outcomes? (r.run.world.isOver (r.first + k)) = some outcomes) :
    Sound run (r.leave k c outcomes) := by
  -- The orchestrator's own cleanup has not returned before, so the run is not cleaned up.
  have unreported (own : r.own = some k) : r.ownReport = none := by
    simp [ownReport, own, here, going]
  obtain ⟨q, left⟩ := exists_left (r := r) k c outcomes fun own cleaned => by
    have reported := h.cleaned cleaned
    simp [unreported own] at reported
  have sound := h.cleanups k c here
  have task (κ i : Nat) : q.world.task? (r.first + κ) i = r.run.world.task? (r.first + κ) i := by
    rw [left.world]
    exact Stage.task?_note (r.first + k) (some outcomes) r.run.scene (r.first + κ) i
  have ledger (κ : Nat) : q.world.ledger[r.first + κ]? =
      r.run.world.ledger[r.first + κ]?.map fun e =>
        if κ = k then (e.1, some outcomes) else e := by
    rw [left.world, Stage.ledger_note, List.getElem?_modify]
    simp only [Nat.add_left_cancel_iff, eq_comm (a := κ)]
    rfl
  have reported := ownReport_modify here (recordsOfRound r.request (some outcomes))
  rw [left.leaves]
  exact
    { request := (request_congr left.observers left.limits left.started).trans h.request
      origin := left.origin.trans h.origin
      rounds := by
        rw [List.length_modify, ← h.rounds, left.world]
        exact List.length_modify ..
      since := by
        rw [left.clock]
        refine forall_mem_modify h.since ?_ k
        exact fun _ le => le
      sites := h.sites_congr rfl rfl task
      cleanups := fun κ c' hc' => by
        rcases getElem?_modify_cases hc' with ⟨rfl, c₀, was, rfl⟩ | ⟨other, was⟩
        · obtain rfl : c = c₀ := Option.some.inj (here.symm.trans was)
          obtain ⟨old, asked⟩ := sound.asked
          rw [h.request]
          refine sound.leave begun returns (task κ) ?_
          rw [ledger, asked, Option.map_some, if_pos rfl]
        · refine (h.cleanups κ c' was).congr (task κ) ?_
          rw [ledger]
          simp [other]
      own := fun κ hκ => by rw [List.length_modify]; exact h.own κ hκ
      results := by
        obtain ⟨worked, made, results⟩ := h.results
        refine ⟨worked, made, ?_⟩
        rw [ownReport, reported, left.results, results]
        cases own : r.own == some k with
        | true => simp [unreported (eq_of_beq own)]
        | false => simp
      cleaned := fun cleaned => by
        rw [ownReport, reported]
        cases own : r.own == some k with
        | true => rfl
        | false =>
          rw [left.state, own, if_neg Bool.false_ne_true] at cleaned
          exact h.cleaned cleaned }

theorem beside (h : Sound run r) {m : Move}
    (earlier : m.round?.all (fun round => decide (round < r.first)) = true) :
    Sound run { r with run := r.run.updateScene fun s => s.move m } := by
  have drift := drift_move r.run.scene m
  have other (κ : Nat) : m.round? ≠ some (r.first + κ) := fun same => by
    rw [same, Option.all_some, decide_eq_true_eq] at earlier
    omega
  have request : Race.request { r with run := r.run.updateScene fun s => s.move m } = r.request :=
    request_congr rfl rfl drift.started
  exact
    { request := request.trans h.request
      origin := drift.origin.trans h.origin
      rounds := drift.world.length_eq.trans h.rounds
      since := fun c hc => Nat.le_trans (h.since c hc) (Stage.clock_move r.run.scene m)
      sites := h.sites_congr rfl rfl fun κ i => task?_move r.run.scene (other κ) i
      cleanups := fun κ c hc => (h.cleanups κ c hc).moved drift.world
      own := h.own
      results := h.results
      cleaned := h.cleaned }

theorem works (h : Sound run r) (free : r.own = none) {q : Run} (worked : Worked r.run q) :
    Sound run { r with run := q } where
  request := (request_congr worked.observers worked.limits worked.started).trans h.request
  origin := worked.origin.trans h.origin
  rounds := by
    rw [worked.world]
    exact h.rounds
  since c hc := by
    rw [worked.clock]
    exact h.since c hc
  sites := h.sites_congr rfl rfl fun k i => by rw [worked.world]
  cleanups k c hc := by
    rw [worked.world]
    exact h.cleanups k c hc
  own := h.own
  results := by
    -- The orchestrator has not asked for its own cleanup, so all results are those of phases.
    have unreported : r.ownReport = none := by rw [ownReport, free]; rfl
    obtain ⟨before, made, results⟩ := h.results
    obtain ⟨added, grown, more⟩ := worked.results
    refine ⟨before ++ added, List.forall_mem_append.2 ⟨made, more⟩, ?_⟩
    rw [unreported, Option.getD_none, List.append_nil] at results
    rw [grown, results, ownReport, free]
    simp
  cleaned cleaned := h.cleaned (worked.state cleaned)

theorem lt_of_task (h : Sound run r) {k i : Nat} {t : Task}
    (task : r.run.world.task? (r.first + k) i = some t) : k < r.cleanups.length := by
  refine Nat.lt_of_not_le fun le => ?_
  have absent : r.run.world.rounds[r.first + k]? = none :=
    List.getElem?_eq_none (by rw [h.rounds]; exact Nat.add_le_add_left le _)
  simp [World.task?, absent] at task

/-- No call of a sound race was asked to stop, so none is kept from its body. -/
theorem isStopping_eq_false (h : Sound run r) (k i : Nat) : r.isStopping k i = false := by
  rw [isStopping]
  cases task : r.run.world.task? (r.first + k) i with
  | none => rfl
  | some t =>
    have here := List.getElem?_eq_getElem (h.lt_of_task task)
    simp [(h.cleanups k _ here).kept.aborted i t (Nat.zero_le i) task]

/-- A call finds the guard closed and returns, after the body of another one has come out. -/
theorem passes (h : Sound run r) {k i : Nat} (closed : (r.sites i).guard.done = true)
    (running : r.status? k i = some .running) :
    Sound run (r.setTask k i (Task.finish (.returned {}))) := by
  have acted := h.act (Task.moved_finish (.returned {})) running
    (fun t status => by simp [Task.finish, status]) ((h.sites i).pass closed running)
  -- The guard stays as it is.
  have same : (r.setTask k i (Task.finish (.returned {}))).setSite i (r.sites i) =
      r.setTask k i (Task.finish (.returned {})) := by
    rw [setSite]
    exact congrArg (fun sites => { r.setTask k i (Task.finish (.returned {})) with sites })
      (Function.update_eq_self i r.sites)
  rwa [same] at acted

/-- The join of a cleanup has its turn, as `Race.turn` has it: it begins, goes on or returns. -/
theorem turns (h : Sound run r) {k : Nat} (timely : r.Timely (.turns k)) {c : Cleanup}
    (here : r.cleanups[k]? = some c) (going : c.report = none) : Sound run (r.turn k c) := by
  unfold Race.turn
  split
  · next outcomes returns =>
    obtain ⟨j, begun, returns⟩ := Option.bind_eq_some_iff.1 returns
    exact h.left here going begun returns
  · split
    · next j stop turns =>
      obtain ⟨rfl, sound⟩ := h.turned timely here going turns
      exact sound
    · exact h

/-- A race stays sound with every step that is `Timely`, by one lemma for each `Event`. -/
theorem step (h : Sound run r) {e : Event} (timely : r.Timely e) : Sound run (r.step e) := by
  cases e with
  | asks own =>
    simp only [Race.step]
    split
    · exact h
    · next open_ =>
      refine h.ask own fun asked => ?_
      simpa using fun free => open_ ⟨asked, .inl free⟩
  | comes k i =>
    simp only [Race.step]
    split
    · next fresh =>
      exact h.act Task.moved_enter fresh (fun t status => by simp [Task.enter, status])
        ((h.sites i).come fresh)
    · exact h
  | finishes i answer =>
    simp only [Race.step]
    split
    · next k works =>
      exact h.act (Task.moved_finish _) ((h.sites i).worker k works)
        (fun t status => by simp [Task.finish, status]) ((h.sites i).finish works answer)
    · exact h
  | passes k i =>
    simp only [Race.step]
    split
    · next passes =>
      exact h.passes passes.1 passes.2
    · exact h
  | turns k =>
    simp only [Race.step]
    split
    · next c here =>
      split
      · next going => exact h.turns timely here (Option.isNone_iff_eq_none.1 going)
      · exact h
    · exact h
  | stops k i =>
    -- Nothing was asked to stop in a sound race, so this step does nothing.
    rw [Race.step, h.isStopping_eq_false, if_neg Bool.false_ne_true]
    exact h
  | works c outcomes =>
    simp only [Race.step]
    split
    · next works =>
      exact h.works (Option.isNone_iff_eq_none.1 works.1) (worked_conduct r.run works.2 outcomes)
    · exact h
  | beside m =>
    simp only [Race.step]
    split
    · next earlier => exact h.beside earlier
    · exact h

theorem new (run : Run) (started : run.scene.started = true)
    (first : run.orchestrator.state ≠ .cleanedUp) : Sound run (start run) where
  request := congrArg run.orchestrator.cleanupRequest started
  origin := rfl
  rounds := rfl
  since _ hc := absurd hc List.not_mem_nil
  sites i := .new fun k => by
    simp [status?, start, World.task?]
  cleanups _ _ hc := absurd hc (by simp [start])
  own _ hk := absurd hk (Option.not_mem_none _)
  results := ⟨[], fun _ none => absurd none List.not_mem_nil, by simp [start, ownReport]⟩
  cleaned cleaned := absurd cleaned first

/-- All that can happen in time to the cleanups of a run keeps a race sound. -/
theorem after (h : Sound run r) {events : List Event} (inTime : r.InTime events) :
    Sound run (r.after events) := by
  induction events generalizing r with
  | nil => exact h
  | cons e events ih => exact ih (h.step inTime.1) inTime.2

end Sound
end Race
end Vigil.Schedule
