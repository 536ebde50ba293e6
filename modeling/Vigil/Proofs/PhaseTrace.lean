import Vigil.Proofs.Schedule.Commands

/-!
# Which calls a run makes

Whatever is asked of a run, in whatever order and however often, whatever the observers do and
whenever the run is cancelled: all observers are called in the same phases, and these are the first
few working phases, each once and in order, and then at most one cleanup.

The module introduces:

* `Due`, what is to be done if nothing is cancelled, read off the phases that were asked for;
* `World.calls` and `trace`, the calls that were made and those that a run is to make;
* `Traced`, the invariant of runs, and `PhaseTrace`, what follows from it.
-/

namespace Vigil.Schedule

/-- What is due in a run: how many working phases were asked for in their order before cleanup, and
whether cleanup was asked for. It depends on nothing but what was asked. -/
structure Due where
  count : Nat := 0
  ended : Bool := false
  deriving DecidableEq, Repr

namespace Due

/-- What is due when `phase` is asked for as well. A working phase that is out of order is not. -/
def ask (d : Due) (phase : Phase) : Due :=
  if d.ended then d
  else if phase = .cleanup then { d with ended := true }
  else if Phase.working[d.count]? = some phase then { d with count := d.count + 1 }
  else d

/-- The state of a run in which `d` was due, whether it was done or skipped. -/
def state (d : Due) : State :=
  if d.ended then .cleanedUp else State.all[d.count]?.getD .cleanedUp

/-- What is due once `phases` were asked for, one after the other. -/
def ofPhases (phases : List Phase) : Due := phases.foldl ask {}

@[simp]
theorem ofPhases_concat (phases : List Phase) (phase : Phase) :
    ofPhases (phases ++ [phase]) = (ofPhases phases).ask phase := by
  simp [ofPhases]

/-- A working phase is refused unless it is the next one of `Phase.working`. -/
theorem ready_iff {d : Due} {phase : Phase} (working : phase ≠ .cleanup) :
    phase.Ready d.state ↔ d.ended = false ∧ Phase.working[d.count]? = some phase := by
  obtain ⟨count, ended⟩ := d
  -- There are five working phases, so beyond that count no phase is the next one.
  match count with
  | 0 | 1 | 2 | 3 | 4 | 5 => cases ended <;> cases phase <;> revert working <;> decide
  | n + 6 =>
    have state : (⟨n + 6, ended⟩ : Due).state = .cleanedUp := by
      cases ended <;> cases n <;> rfl
    rw [state]
    cases phase <;> simp_all [Phase.Ready, Phase.required?, Phase.working]

theorem ask_of_ready {d : Due} {phase : Phase} (working : phase ≠ .cleanup)
    (ready : phase.Ready d.state) : d.ask phase = ⟨d.count + 1, false⟩ := by
  obtain ⟨going, next⟩ := (ready_iff working).1 ready
  simp [ask, going, working, next]

theorem ask_of_not_ready {d : Due} {phase : Phase} (working : phase ≠ .cleanup)
    (unready : ¬phase.Ready d.state) : d.ask phase = d := by
  rw [ready_iff working] at unready
  cases ended : d.ended with
  | true => simp [ask, ended]
  | false =>
    have other : Phase.working[d.count]? ≠ some phase := fun next => unready ⟨ended, next⟩
    simp [ask, ended, working, other]

theorem state_ask_of_ready {d : Due} {phase : Phase} (working : phase ≠ .cleanup)
    (ready : phase.Ready d.state) : (d.ask phase).state = phase.settled := by
  rw [ask_of_ready working ready]
  obtain ⟨-, next⟩ := (ready_iff working).1 ready
  match hc : d.count with
  | 0 | 1 | 2 | 3 | 4 =>
    rw [hc] at next
    obtain rfl := Option.some.inj next
    rfl
  | n + 5 => simp [hc, Phase.working] at next

theorem count_le_ask (d : Due) (phase : Phase) : d.count ≤ (d.ask phase).count := by
  unfold ask
  split
  · exact Nat.le_refl _
  · split
    · exact Nat.le_refl _
    · split
      · exact Nat.le_succ _
      · exact Nat.le_refl _

theorem count_ask_le {d : Due} (h : d.count ≤ 5) (phase : Phase) : (d.ask phase).count ≤ 5 := by
  unfold ask
  split
  · exact h
  · split
    · exact h
    · split
      · next next =>
        have lt : d.count < Phase.working.length := (List.getElem?_eq_some_iff.1 next).1
        exact lt
      · exact h

theorem count_ofPhases_le (phases : List Phase) : (ofPhases phases).count ≤ 5 := by
  induction phases using List.reverseRecOn with
  | nil => exact Nat.zero_le 5
  | append_singleton phases phase ih =>
    rw [ofPhases_concat]
    exact count_ask_le ih phase

theorem state_eq_cleanedUp_iff {d : Due} (h : d.count ≤ 5) :
    d.state = .cleanedUp ↔ d.ended = true := by
  obtain ⟨count, ended⟩ := d
  match count with
  | 0 | 1 | 2 | 3 | 4 | 5 => cases ended <;> decide
  | n + 6 =>
    have le : n + 6 ≤ 5 := h
    omega

/-- Asking for all working phases in their order makes all of them due, whatever else is asked for
in between, by induction on what is asked. -/
theorem foldl_ask_of_sublist {phases : List Phase} {k : Nat} (k_le : k ≤ 5)
    (working : .cleanup ∉ phases) (order : List.Sublist (Phase.working.drop k) phases) :
    phases.foldl ask ⟨k, false⟩ = ⟨5, false⟩ := by
  induction phases generalizing k with
  | nil =>
    have length : 5 - k = 0 := by
      simpa [Phase.working] using congrArg List.length (List.sublist_nil.1 order)
    obtain rfl : k = 5 := by omega
    rfl
  | cons phase phases ih =>
    have hphase : phase ≠ .cleanup := fun h => working (by simp [h])
    have rest : Phase.cleanup ∉ phases := fun h => working (List.mem_cons_of_mem _ h)
    -- The phase is the next one and settles, or it is out of order and passed over.
    by_cases next : Phase.working[k]? = some phase
    · have lt : k < Phase.working.length := (List.getElem?_eq_some_iff.1 next).1
      have asked : (⟨k, false⟩ : Due).ask phase = ⟨k + 1, false⟩ := by simp [ask, hphase, next]
      rw [List.foldl_cons, asked]
      refine ih lt rest ?_
      rw [List.drop_eq_getElem_cons lt, (List.getElem?_eq_some_iff.1 next).2] at order
      exact List.cons_sublist_cons.1 order
    · have asked : (⟨k, false⟩ : Due).ask phase = ⟨k, false⟩ := by simp [ask, hphase, next]
      rw [List.foldl_cons, asked]
      refine ih k_le rest ?_
      rcases List.sublist_cons_iff.1 order with order | ⟨tail, drop, -⟩
      · exact order
      · have head : Phase.working[k]? = some phase := by
          rw [← List.head?_drop, drop]
          rfl
        exact absurd head next

theorem foldl_ask_of_over (phases : List Phase) (k : Nat) :
    phases.foldl ask ⟨k, true⟩ = ⟨k, true⟩ := by
  induction phases with
  | nil => rfl
  | cons phase phases ih => exact ih

/-- All phases are due once they were asked for in their order, whatever stands in `before`
besides. -/
theorem ofPhases_of_sublist {before : List Phase} (rest : List Phase)
    (working : .cleanup ∉ before) (order : List.Sublist Phase.working before) :
    ofPhases (before ++ .cleanup :: rest) = ⟨5, true⟩ := by
  rw [ofPhases, List.foldl_append, foldl_ask_of_sublist (Nat.zero_le 5) working order]
  exact foldl_ask_of_over rest 5

end Due

/-! ## The calls of a run -/

/-- The phases in which calls were made, each with the observers that were called. -/
def World.calls (w : World) : List (Phase × List Registration) :=
  w.ledger.map fun e => (e.1.call.phase, e.1.targets)

/-- The calls of a run that has made those of `d.count` working phases, and those of cleanup if it
is over. Cleanup calls nobody if there was no setup. -/
def trace (observers : List Registration) (d : Due) : List (Phase × List Registration) :=
  (Phase.working.take d.count).map (fun phase => (phase, observers)) ++
    if d.ended then [(.cleanup, if d.count = 0 then [] else observers)] else []

theorem World.callsOn_eq (w : World) (observer : Nat) :
    w.callsOn observer =
      (w.calls.filter fun c => decide (observer < c.2.length)).map Prod.fst := by
  simp [World.callsOn, World.calls, World.ledger, List.filter_map, Function.comp_def, Round.phase,
    Round.length_tasks]

theorem World.filter_callsOn (w : World) (observer : Nat) :
    (w.callsOn observer).filter (· != .cleanup) =
      ((w.calls.filter fun c => c.1 != .cleanup).filter
        fun c => decide (observer < c.2.length)).map Prod.fst := by
  rw [World.callsOn_eq, List.filter_map, List.filter_filter, List.filter_filter]
  congr 1
  exact List.filter_congr fun c _ => Bool.and_comm _ _

/-- Every observer is called in the same phases when the calls are those of a `trace`. -/
theorem callsOn_of_trace {w : World} {observers : List Registration} {d : Due}
    (h : w.calls = trace observers d) {observer : Nat} (lt : observer < observers.length) :
    w.callsOn observer =
      Phase.working.take d.count ++ if d.ended ∧ 1 ≤ d.count then [.cleanup] else [] := by
  -- Working phases call everybody, and so does a cleanup unless nothing came before it.
  have all : ((Phase.working.take d.count).map fun phase => (phase, observers)).filter
      (fun c => decide (observer < c.2.length)) =
      (Phase.working.take d.count).map fun phase => (phase, observers) := by
    refine List.filter_eq_self.2 fun c hc => ?_
    obtain ⟨phase, -, rfl⟩ := List.mem_map.1 hc
    exact decide_eq_true lt
  rw [World.callsOn_eq, h, trace, List.filter_append, all, List.map_append]
  congr 1
  · simp [Function.comp_def]
  · by_cases none : d.count = 0
    · cases d.ended <;> simp [none]
    · cases d.ended <;> simp [none, lt, Nat.one_le_iff_ne_zero]

theorem trace_succ (observers : List Registration) {k : Nat} {phase : Phase}
    (next : Phase.working[k]? = some phase) :
    trace observers ⟨k + 1, false⟩ = trace observers ⟨k, false⟩ ++ [(phase, observers)] := by
  simp [trace, List.take_add_one, next]

theorem trace_over (observers : List Registration) (k : Nat) :
    trace observers ⟨k, true⟩ =
      trace observers ⟨k, false⟩ ++ [(.cleanup, if k = 0 then [] else observers)] := by
  simp [trace]

theorem Joined.calls {request : JoinRequest} {s s' : Stage}
    {outcomes : Option (List CallOutcome)} (h : Joined request s outcomes s') :
    s'.inner.calls = s.inner.calls ++ [(request.call.phase, request.targets)] := by
  simp [World.calls, h.ledger]

theorem Rests.calls {r r' : Run} (h : Rests r r') : r'.world.calls = r.world.calls := by
  simp [World.calls, Run.world, h.drift.world.ledger]

/-- The run `r` of these `observers` has made the calls of `made`, while `phases` were asked for:
the invariant from which all that is certain of its calls is read off. -/
structure Traced (observers : List Registration) (phases : List Phase) (made : Due) (r : Run) :
    Prop where
  observers_eq : r.orchestrator.observers = observers
  /-- The calls are those of `trace`. -/
  calls : r.world.calls = trace observers made
  /-- There is something to clean up once setup was asked of the observers. -/
  started : r.scene.started = decide (1 ≤ made.count)
  count_le : made.count ≤ (Due.ofPhases phases).count
  /-- The state says what was due, whether it was done or skipped. -/
  state : r.isFree = true → r.orchestrator.state = (Due.ofPhases phases).state
  /-- Cleanup is never skipped. -/
  ended : r.isFree = true → made.ended = (Due.ofPhases phases).ended
  /-- Without a cancellation nothing is skipped. -/
  level : r.isFree = true → r.orchestrator.cancelled = false → made = Due.ofPhases phases

namespace Traced

variable {observers : List Registration} {phases : List Phase} {made : Due} {q : Run}

theorem new (runId : String) (registry : Registry) (limits : Limits) (origin : Nat) :
    Traced registry.entries [] {} (Run.new runId registry limits origin) where
  observers_eq := rfl
  calls := rfl
  started := rfl
  count_le := Nat.le_refl 0
  state _ := rfl
  ended _ := rfl
  level _ _ := rfl

theorem rests {q' : Run} (h : Traced observers phases made q) (rests : Rests q q') :
    Traced observers phases made q' := by
  have free : q'.isFree = q.isFree := by simp [Run.isFree, rests.standing]
  exact
    { observers_eq := by rw [rests.orchestrator, h.observers_eq]
      calls := by rw [rests.calls, h.calls]
      started := by rw [rests.drift.started, h.started]
      count_le := h.count_le
      state := by rw [rests.orchestrator, free]; exact h.state
      ended := by rw [free]; exact h.ended
      level := by rw [rests.orchestrator, free]; exact h.level }

theorem ignored (h : Traced observers phases made q) (busy : q.isFree = false) (phase : Phase) :
    Traced observers (phases ++ [phase]) made q where
  observers_eq := h.observers_eq
  calls := h.calls
  started := h.started
  count_le := by
    rw [Due.ofPhases_concat]
    exact Nat.le_trans h.count_le (Due.count_le_ask _ phase)
  state free := absurd free (by simp [busy])
  ended free := absurd free (by simp [busy])
  level free := absurd free (by simp [busy])

theorem idle (h : Traced observers phases made q) {phase : Phase}
    (same : (Due.ofPhases phases).ask phase = Due.ofPhases phases) :
    Traced observers (phases ++ [phase]) made q := by
  have due : Due.ofPhases (phases ++ [phase]) = Due.ofPhases phases := by
    rw [Due.ofPhases_concat, same]
  exact
    { h with
      count_le := by rw [due]; exact h.count_le
      state := by rw [due]; exact h.state
      ended := by rw [due]; exact h.ended
      level := by rw [due]; exact h.level }

/-- A phase that is skipped is due all the same, so the state moves on while `made` does not. -/
theorem skipped (h : Traced observers phases made q) (free : q.isFree = true) {c : Command}
    (working : c.phase ≠ .cleanup) (ready : c.phase.Ready q.orchestrator.state)
    (cancelled : q.isCancelled = true) :
    Traced observers (phases ++ [c.phase]) made (c.settle none (q.begun c.phase)) := by
  rw [h.state free] at ready
  obtain ⟨going, -⟩ := (Due.ready_iff working).1 ready
  have due := Due.ask_of_ready working ready
  exact
    { observers_eq := by simpa [Progress.begun] using h.observers_eq
      calls := by simpa [Run.world, Progress.begun] using h.calls
      started := by simpa [Progress.begun] using h.started
      count_le := by
        rw [Due.ofPhases_concat, due]
        exact Nat.le_succ_of_le h.count_le
      state := fun _ => by
        rw [Due.ofPhases_concat, Due.state_ask_of_ready working ready]
        simp [Progress.begun]
      ended := fun _ => by rw [Due.ofPhases_concat, due, h.ended free, going]
      level := fun _ uncancelled => by simp [Progress.begun, cancelled] at uncancelled }

theorem next (h : Traced observers phases made q) (free : q.isFree = true) {phase : Phase}
    (working : phase ≠ .cleanup) (ready : phase.Ready q.orchestrator.state)
    (going : q.isCancelled = false) :
    made = Due.ofPhases phases ∧ made.ended = false ∧ Phase.working[made.count]? = some phase := by
  have uncancelled : q.orchestrator.cancelled = false := by
    simp only [Progress.isCancelled, Bool.or_eq_false_iff] at going
    exact going.1
  have level := h.level free uncancelled
  rw [h.state free, ← level] at ready
  exact ⟨level, (Due.ready_iff working).1 ready⟩

theorem worked (h : Traced observers phases made q) (free : q.isFree = true) {c : Command}
    (working : c.phase ≠ .cleanup) (ready : c.phase.Ready q.orchestrator.state)
    (going : q.isCancelled = false) {outcomes : Option (List CallOutcome)} {scene : Stage}
    (joined : Joined (q.requestOf (c.call q)) (q.sceneOf c.phase) outcomes scene) {q' : Run}
    (observers_eq : q'.orchestrator.observers = q.orchestrator.observers)
    (inner : q'.world = scene.inner) (started : q'.scene.started = scene.started)
    (state : q'.isFree = true → q'.orchestrator.state = c.phase.settled) :
    Traced observers (phases ++ [c.phase]) ⟨made.count + 1, false⟩ q' := by
  obtain ⟨level, unfinished, next⟩ := h.next free working ready going
  rw [h.state free] at ready
  have due := Due.ask_of_ready working ready
  have made_eq : made = ⟨made.count, false⟩ := by rw [← unfinished]
  have before : (q.sceneOf c.phase).inner = q.world := q.inner_sceneOf c.phase
  exact
    { observers_eq := by rw [observers_eq, h.observers_eq]
      calls := by
        rw [inner, joined.calls, before, h.calls, trace_succ observers next, ← made_eq,
          Progress.requestOf, h.observers_eq, Command.phase_call]
      started := by
        rw [started, joined.started]
        unfold Progress.sceneOf
        -- Setup marks the run as started; a later phase finds it so, since setup was made first.
        split
        · simp
        · next later =>
          have positive : made.count ≠ 0 := fun zero => by
            rw [zero] at next
            exact later (Option.some.inj next).symm
          simp [h.started, Nat.one_le_iff_ne_zero, positive]
      count_le := Nat.le_of_eq (by rw [Due.ofPhases_concat, due, ← level])
      state := fun free' => by
        rw [Due.ofPhases_concat, Due.state_ask_of_ready working ready, state free']
      ended := fun _ => by rw [Due.ofPhases_concat, due]
      level := fun _ _ => by rw [Due.ofPhases_concat, due, ← level] }

theorem cleaned (h : Traced observers phases made q) (free : q.isFree = true)
    (first : q.orchestrator.state ≠ .cleanedUp) {outcomes : Option (List CallOutcome)}
    {scene : Stage}
    (joined : Joined (q.orchestrator.cleanupRequest q.scene.started) q.scene outcomes scene)
    {q' : Run} (observers_eq : q'.orchestrator.observers = q.orchestrator.observers)
    (cancelled : q'.orchestrator.cancelled = q.orchestrator.cancelled)
    (inner : q'.world = scene.inner) (started : q'.scene.started = scene.started)
    (state : q'.isFree = true → q'.orchestrator.state = .cleanedUp) :
    Traced observers (phases ++ [.cleanup]) ⟨made.count, true⟩ q' := by
  have unfinished : (Due.ofPhases phases).ended = false := by
    rw [h.state free] at first
    refine Bool.eq_false_iff.2 fun ended => first ?_
    simp [Due.state, ended]
  have made_eq : made = ⟨made.count, false⟩ := by rw [← unfinished, ← h.ended free]
  have due : Due.ofPhases (phases ++ [.cleanup]) = ⟨(Due.ofPhases phases).count, true⟩ := by
    simp [Due.ask, unfinished]
  exact
    { observers_eq := by rw [observers_eq, h.observers_eq]
      calls := by
        -- The run was started exactly if a working phase was made.
        have targets : (q.orchestrator.cleanupRequest q.scene.started).targets =
            if made.count = 0 then [] else observers := by
          by_cases none : made.count = 0 <;>
            simp [Orchestrator.cleanupRequest, Orchestrator.cleanupTargets, h.started,
              h.observers_eq, none, Nat.one_le_iff_ne_zero]
        rw [inner, joined.calls, targets, trace_over, ← made_eq, ← h.calls]
        rfl
      started := by rw [started, joined.started, h.started]
      count_le := by rw [due]; exact h.count_le
      state := fun free' => by rw [due, state free']; rfl
      ended := fun _ => by rw [due]
      level := fun _ uncancelled => by rw [due, ← h.level free (cancelled ▸ uncancelled)] }

theorem ask_cleanup (h : Traced observers phases made q) (free : q.isFree = true)
    (done : q.orchestrator.state = .cleanedUp) :
    (Due.ofPhases phases).ask .cleanup = Due.ofPhases phases := by
  rw [h.state free] at done
  have ended := (Due.state_eq_cleanedUp_iff (Due.count_ofPhases_le phases)).1 done
  simp [Due.ask, ended]

/-- Whatever a run is asked for, it makes the calls that are due or skips them: the step lemma of
`Traced`. -/
theorem asks (h : Traced observers phases made q) (free : q.isFree = true) {c : Command}
    {answer : Except Halt Unit} {q' : Run} (asked : Asked c q answer q') :
    ∃ made', Traced observers (phases ++ [c.phase]) made' q' := by
  cases asked with
  | refused working unready =>
    rw [h.state free] at unready
    exact ⟨made, h.idle (Due.ask_of_not_ready working unready)⟩
  | skipped working ready cancelled => exact ⟨made, h.skipped free working ready cancelled⟩
  | unjoined scene working ready going joined =>
    -- The run stands in the midst of its calls, so nothing is claimed of its state.
    refine ⟨_, h.worked free working ready going joined rfl rfl rfl fun free' => ?_⟩
    exact absurd (joined.free.1 (of_decide_eq_true free')) nofun
  | joined outcomes scene working ready going joined =>
    refine ⟨_, h.worked free working ready going joined ?_ ?_ ?_ fun _ => ?_⟩ <;>
      simp [Run.world, Progress.settledWith]
  | again cleanup done =>
    rw [cleanup]
    exact ⟨made, h.idle (h.ask_cleanup free done)⟩
  | uncleaned scene cleanup first joined =>
    rw [cleanup]
    refine ⟨_, h.cleaned free first joined rfl rfl rfl rfl fun free' => ?_⟩
    exact absurd (joined.free.1 (of_decide_eq_true free')) nofun
  | cleaned outcomes scene cleanup first joined =>
    rw [cleanup]
    exact ⟨_, h.cleaned free first joined rfl rfl rfl rfl fun _ => rfl⟩

end Traced

/-- Every run has made the calls of some `Due`, whatever `acts` have happened to it. -/
theorem traced_after (runId : String) (registry : Registry) (limits : Limits) (origin : Nat)
    (acts : List Act) :
    ∃ made, Traced registry.entries (Run.asked acts) made
      ((Run.new runId registry limits origin).after acts) :=
  Run.after_induction (motive := fun phases q => ∃ made, Traced registry.entries phases made q)
    ⟨{}, .new runId registry limits origin⟩
    (fun ⟨made, h⟩ rests => ⟨made, h.rests rests⟩)
    (fun c ⟨made, h⟩ busy => ⟨made, h.ignored busy c.phase⟩)
    (fun ⟨_, h⟩ free asked => h.asks free asked) acts

theorem phases_sublist (runId : String) (registry : Registry) (limits : Limits) (origin : Nat)
    (acts : List Act) :
    List.Sublist (((Run.new runId registry limits origin).after acts).world.ledger.map
      fun e => e.1.call.phase) Phase.all := by
  obtain ⟨made, h⟩ := traced_after runId registry limits origin acts
  -- Whoever was called, the phases of the calls are those of the trace.
  have phases : ((Run.new runId registry limits origin).after acts).world.ledger.map
      (fun e => e.1.call.phase) =
      Phase.working.take made.count ++ if made.ended then [.cleanup] else [] := by
    have firsts := congrArg (List.map Prod.fst) h.calls
    rw [trace, List.map_append] at firsts
    simp only [World.calls, List.map_map, Function.comp_def, List.map_id'] at firsts
    refine firsts.trans ?_
    cases made.ended <;> simp
  rw [phases, show Phase.all = Phase.working ++ [.cleanup] from rfl]
  refine (List.take_sublist _ _).append ?_
  split
  · exact List.Sublist.refl _
  · exact List.nil_sublist _

/-- All observers are called in each round, but for a cleanup before which there was no setup. -/
theorem Traced.targets {observers : List Registration} {phases : List Phase} {made : Due} {r : Run}
    (h : Traced observers phases made r) {c : Phase × List Registration} (hc : c ∈ r.world.calls) :
    c.2 = observers ∨ c.1 = .cleanup ∧ made.count = 0 ∧ c.2 = [] := by
  rw [h.calls, trace, List.mem_append, List.mem_map] at hc
  rcases hc with ⟨phase, -, rfl⟩ | hc
  · exact .inl rfl
  · split at hc
    · obtain rfl := List.mem_singleton.1 hc
      by_cases none : made.count = 0 <;> simp [none]
    · cases hc

/-! ## What stays as it is -/

/-- A run that is cancelled stays cancelled, and it makes no calls but those of cleanup, whatever
`acts` follow. -/
theorem cancelled_after {r : Run} (cancelled : r.orchestrator.cancelled = true)
    (acts : List Act) :
    (r.after acts).orchestrator.cancelled = true ∧
      (r.after acts).world.calls.filter (fun c => c.1 != .cleanup) =
        r.world.calls.filter fun c => c.1 != .cleanup := by
  refine Run.after_invariant (motive := fun q => q.orchestrator.cancelled = true ∧
    q.world.calls.filter (fun c => c.1 != .cleanup) =
      r.world.calls.filter fun c => c.1 != .cleanup) ⟨cancelled, rfl⟩ ?_ ?_ acts
  · intro q q' h rests
    rw [rests.orchestrator, rests.calls]
    exact h
  · intro q q' c answer ⟨h, same⟩ _ asked
    have skips : q.isCancelled = true := by simp [Progress.isCancelled, h]
    -- A working phase is refused or skipped, and the calls of a cleanup do not count.
    cases asked with
    | refused => exact ⟨h, same⟩
    | skipped working _ _ => simpa [Progress.begun, skips, Run.world] using same
    | unjoined _ _ _ going => exact absurd going (by simp [skips])
    | joined _ _ _ _ going => exact absurd going (by simp [skips])
    | again => exact ⟨h, same⟩
    | uncleaned scene _ _ joined =>
      refine ⟨h, ?_⟩
      change scene.inner.calls.filter _ = _
      rw [joined.calls, List.filter_append, ← same]
      exact List.append_nil _
    | cleaned outcomes scene _ _ joined =>
      refine ⟨h, ?_⟩
      change scene.inner.calls.filter _ = _
      rw [joined.calls, List.filter_append, ← same]
      exact List.append_nil _

theorem cleanedUp_after {r : Run} (done : r.orchestrator.state = .cleanedUp) (acts : List Act) :
    (r.after acts).orchestrator.state = .cleanedUp ∧
      (r.after acts).world.calls = r.world.calls := by
  refine Run.after_invariant (motive := fun q => q.orchestrator.state = .cleanedUp ∧
    q.world.calls = r.world.calls) ⟨done, rfl⟩ ?_ ?_ acts
  · intro q q' h rests
    rw [rests.orchestrator, rests.calls]
    exact h
  · intro q q' c answer ⟨h, same⟩ _ asked
    -- No other phase begins in the last state.
    have unready : c.phase ≠ .cleanup → ¬c.phase.Ready q.orchestrator.state := by
      rw [h]
      cases c.phase <;> decide
    cases asked with
    | refused => exact ⟨h, same⟩
    | skipped working ready => exact absurd ready (unready working)
    | unjoined _ working ready => exact absurd ready (unready working)
    | joined _ _ working ready => exact absurd ready (unready working)
    | again => exact ⟨h, same⟩
    | uncleaned _ _ first => exact absurd h first
    | cleaned _ _ _ first => exact absurd h first

/-- The cleanup of a run calls every observer if setup was asked of any, and nobody the second
time. -/
theorem Traced.callsOn_cleanup {observers : List Registration} {phases : List Phase} {made : Due}
    {r : Run} (h : Traced observers phases made r) (free : r.isFree = true) (slots : List Slot)
    {observer : Nat} (lt : observer < observers.length) :
    (r.ask .cleanup slots).2.world.callsOn observer =
      r.world.callsOn observer ++
        if r.orchestrator.state ≠ .cleanedUp ∧ 1 ≤ made.count then [.cleanup] else [] := by
  have standing := rests_stand free slots
  have asked := asked_ask .cleanup slots r
  have before := callsOn_of_trace h.calls lt
  have going : r.orchestrator.state ≠ .cleanedUp → made.ended = false := by
    rw [h.state free, h.ended free, ne_eq,
      Due.state_eq_cleanedUp_iff (Due.count_ofPhases_le phases), Bool.not_eq_true]
    exact id
  have called {q : Run} (first : r.orchestrator.state ≠ .cleanedUp)
      (h' : Traced observers (phases ++ [.cleanup]) ⟨made.count, true⟩ q) :
      q.world.callsOn observer =
        r.world.callsOn observer ++
          if r.orchestrator.state ≠ .cleanedUp ∧ 1 ≤ made.count then [.cleanup] else [] := by
    rw [callsOn_of_trace h'.calls lt, before, going first]
    simp [first]
  -- Whether the cleanup returns or not, its calls are made, unless it was carried out before.
  generalize (r.ask .cleanup slots).1 = answer at asked
  generalize (r.ask .cleanup slots).2 = q at asked
  cases asked with
  | refused working => exact absurd rfl working
  | skipped working => exact absurd rfl working
  | unjoined _ working => exact absurd rfl working
  | joined _ _ working => exact absurd rfl working
  | again _ done =>
    have done : r.orchestrator.state = .cleanedUp := done
    rw [callsOn_of_trace (h.rests standing).calls lt, before]
    simp [done]
  | uncleaned scene _ first joined =>
    refine called first
      ((h.rests standing).cleaned rfl first joined rfl rfl rfl rfl fun free' => ?_)
    exact absurd (joined.free.1 (of_decide_eq_true free')) nofun
  | cleaned outcomes scene _ first joined =>
    exact called first
      ((h.rests standing).cleaned rfl first joined rfl rfl rfl rfl fun _ => rfl)

theorem state_of_cleanup {r : Run} {slots : List Slot}
    (returned : (r.ask .cleanup slots).1 = .ok ()) :
    (r.ask .cleanup slots).2.orchestrator.state = .cleanedUp := by
  have asked := asked_ask .cleanup slots r
  rw [returned] at asked
  generalize (r.ask .cleanup slots).2 = q at asked
  cases asked with
  | skipped working => exact absurd rfl working
  | joined _ _ working => exact absurd rfl working
  | again _ done => exact done
  | cleaned => rfl

/-- A phase of a run that is cancelled settles at once and without an error. -/
theorem ask_of_cancelled {r : Run} (cancelled : r.orchestrator.cancelled = true) {c : Command}
    (working : c.phase ≠ .cleanup) (ready : c.phase.Ready r.orchestrator.state)
    (slots : List Slot) :
    (r.ask c slots).1 = .ok () ∧ (r.ask c slots).2.isFree = true ∧
      (r.ask c slots).2.orchestrator.state = c.phase.settled := by
  have asked := asked_ask c slots r
  have skips : Progress.isCancelled (r.updateScene fun s => s.stand .free slots) = true := by
    simp [Progress.isCancelled, Run.updateScene, cancelled]
  generalize (r.ask c slots).1 = answer at asked
  generalize (r.ask c slots).2 = q at asked
  cases asked with
  | refused _ unready => exact absurd ready unready
  | skipped => simp [Progress.begun, Run.isFree, Run.world, Run.updateScene, Stage.stand,
      Stage.updateWorld]
  | unjoined _ _ _ going => exact absurd going (by simp [skips])
  | joined _ _ _ _ going => exact absurd going (by simp [skips])
  | again cleanup => exact absurd cleanup working
  | uncleaned _ cleanup => exact absurd cleanup working
  | cleaned _ _ cleanup => exact absurd cleanup working

/-- What is certain of the calls of a run `r` of these `observers` after `acts`, when it has come to
the calls of `k` working phases. -/
structure PhaseTrace (observers : List Registration) (acts : List Act) (r : Run) (k : Nat) :
    Prop where
  /-- Every observer was called in the first `k` working phases, each once and in order, and then at
  most once for cleanup. -/
  calls : ∃ last : List Phase, (last = [] ∨ last = [.cleanup]) ∧
    ∀ i < observers.length, r.world.callsOn i = Phase.working.take k ++ last
  /-- Whenever one observer was called all were, those that failed before included. -/
  targets : ∀ c ∈ r.world.calls, c.2 = observers ∨ c.1 = .cleanup ∧ k = 0 ∧ c.2 = []
  /-- Cleanup calls all observers from whatever state, unless nobody was called before, and when it
  returns the run is cleaned up. -/
  cleanup : r.isFree = true → ∀ slots,
    ((r.ask .cleanup slots).1 = .ok () → (r.ask .cleanup slots).2.orchestrator.state = .cleanedUp) ∧
    ∀ i < observers.length, (r.ask .cleanup slots).2.world.callsOn i =
      r.world.callsOn i ++
        if r.orchestrator.state ≠ .cleanedUp ∧ 1 ≤ k then [.cleanup] else []
  /-- A run that is cleaned up calls nobody, whatever it is asked for. -/
  cleanedUp : r.orchestrator.state = .cleanedUp →
    ∀ more i, (r.after more).world.callsOn i = r.world.callsOn i
  /-- A run that is cancelled stays so, even with another token, and calls nobody but for
  cleanup. -/
  cancelled : r.orchestrator.cancelled = true → ∀ more,
    (r.after more).orchestrator.cancelled = true ∧
    ∀ i, ((r.after more).world.callsOn i).filter (· != .cleanup) =
      (r.world.callsOn i).filter (· != .cleanup)
  /-- A phase that is skipped settles as well. -/
  skipped : r.orchestrator.cancelled = true → ∀ (c : Command) (slots : List Slot),
    c.phase ≠ .cleanup → c.phase.Ready r.orchestrator.state →
    (r.ask c slots).1 = .ok () ∧ (r.ask c slots).2.isFree = true ∧
      (r.ask c slots).2.orchestrator.state = c.phase.settled
  /-- The state depends on nothing but the phases that were asked for, as `Due.ofPhases` says. -/
  state : r.isFree = true → r.orchestrator.state = (Due.ofPhases (Run.asked acts)).state
  /-- If all phases were asked for in their order, whatever else was asked for in between, and the
  run is not cancelled, every observer was called in every phase. -/
  whole : ∀ before rest, Run.asked acts = before ++ .cleanup :: rest → .cleanup ∉ before →
    List.Sublist Phase.working before → r.isFree = true → r.orchestrator.cancelled = false →
    k = 5 ∧ ∀ i < observers.length, r.world.callsOn i = Phase.all

/-- The phases in which observers are called. Every run calls all its observers in the same first
`k` working phases and then at most once for cleanup, whatever is asked of it, however the calls
come out and whenever it is cancelled (`PhaseTrace`). A call that is stopped before it begins counts
as one. -/
theorem phase_trace (runId : String) (registry : Registry) (limits : Limits) (origin : Nat)
    (acts : List Act) :
    ∃ k ≤ 5,
      PhaseTrace registry.entries acts ((Run.new runId registry limits origin).after acts) k := by
  obtain ⟨made, h⟩ := traced_after runId registry limits origin acts
  refine ⟨made.count, Nat.le_trans h.count_le (Due.count_ofPhases_le _), ?_⟩
  exact
    { calls := by
        refine ⟨if made.ended ∧ 1 ≤ made.count then [.cleanup] else [], ?_, fun i hi => ?_⟩
        · split <;> simp
        · exact callsOn_of_trace h.calls hi
      targets := fun c hc => h.targets hc
      cleanup := fun free slots =>
        ⟨state_of_cleanup, fun i hi => h.callsOn_cleanup free slots hi⟩
      cleanedUp := fun done more i => by
        rw [World.callsOn_eq, World.callsOn_eq, (cleanedUp_after done more).2]
      cancelled := fun cancelled more => by
        obtain ⟨stays, same⟩ := cancelled_after cancelled more
        refine ⟨stays, fun i => ?_⟩
        rw [World.filter_callsOn, World.filter_callsOn, same]
      skipped := fun cancelled c slots working ready =>
        ask_of_cancelled cancelled working ready slots
      state := h.state
      whole := fun before rest asked working order free uncancelled => by
        -- Once all phases were asked for in their order, whatever else was asked for, nothing more
        -- is due.
        have due : Due.ofPhases (Run.asked acts) = ⟨5, true⟩ := by
          rw [asked]
          exact Due.ofPhases_of_sublist rest working order
        have level := h.level free uncancelled
        refine ⟨by rw [level, due], fun i hi => ?_⟩
        rw [callsOn_of_trace h.calls hi, level, due]
        rfl }

-- One observer panics in every call, and a call out of order is refused in between.
example :
    let registry : Registry :=
      { entries := [⟨"a", "x"⟩, ⟨"b", "y"⟩], distinct := by decide, named := by decide }
    let endings : List Ending := [.panicked none, .returned {}]
    let r := (Run.new "" registry ⟨.ofSecs 60, .ofSecs 60, .ofSecs 5⟩ 0).after
      [.command (.setup ⟨"", none, none, none, none, false⟩) (served 0 endings),
       .command .evaluate [],
       .command (.collect "" default) (served 1 endings),
       .command (.construct .empty default) (served 2 endings),
       .command .evaluate (served 3 endings),
       .command (.store "" "" .empty) (served 4 endings),
       .command .cleanup (served 5 endings)]
    r.world.callsOn 0 = Phase.all ∧ r.world.callsOn 1 = Phase.all := by
  decide

end Vigil.Schedule
