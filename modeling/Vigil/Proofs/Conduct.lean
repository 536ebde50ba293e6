import Vigil.Orchestrator

/-!
# What the phases do

A working phase does one of four things: it is refused and changes nothing, it is skipped after a
cancellation, its calls are never joined, or its calls are joined and settled. Everything that is
proved of a run follows from these four cases, whatever platform carries the run out.

The module introduces:

* `perform_bind` and its like, which carry out an action step by step;
* `Phase.Ready`, when a phase is not refused;
* `PhaseResult`, the four things that a phase may come to, and `CleanupResult`, the three that
  cleanup may come to;
* `Progress.mergeRaw` and `Progress.mergeFinal`, what collection and construction do after their
  phase, and `Progress.cleanedWith`, what cleanup does.
-/

namespace Vigil

/-- The phase may begin in the state `s`, which is the one that it requires if it requires any. -/
def Phase.Ready (phase : Phase) (s : State) : Prop := ∀ required ∈ phase.required?, s = required

instance (phase : Phase) (s : State) : Decidable (phase.Ready s) := by
  unfold Phase.Ready
  infer_instance

namespace Progress

variable {ε α β : Type}

@[simp]
theorem perform_pure (p : Progress ε) (a : α) : p.perform (pure a) = (.ok a, p) := rfl

@[simp]
theorem perform_throw (p : Progress ε) (h : Halt) :
    p.perform (throw h : Conduct ε α) = (.error h, p) := rfl

@[simp]
theorem perform_get (p : Progress ε) : p.perform (get : Conduct ε (Progress ε)) = (.ok p, p) := rfl

@[simp]
theorem perform_set (p q : Progress ε) : p.perform (set q : Conduct ε PUnit) = (.ok ⟨⟩, q) := rfl

@[simp]
theorem perform_modify (p : Progress ε) (f : Progress ε → Progress ε) :
    p.perform (modify f : Conduct ε PUnit) = (.ok ⟨⟩, f p) := rfl

@[simp]
theorem perform_update (p : Progress ε) (f : Orchestrator → Orchestrator) :
    p.perform (Conduct.update f) = (.ok (), { p with orchestrator := f p.orchestrator }) := rfl

@[simp]
theorem perform_updateScene (p : Progress ε) (f : Scene ε → Scene ε) :
    p.perform (Conduct.updateScene f) = (.ok (), { p with scene := f p.scene }) := rfl

theorem perform_bind (p : Progress ε) (x : Conduct ε α) (f : α → Conduct ε β) :
    p.perform (x >>= f) =
      match p.perform x with
      | (.ok a, q) => q.perform (f a)
      | (.error h, q) => (.error h, q) := by
  rcases hx : p.perform x with ⟨h | a, q⟩ <;>
  · simp only [perform, ExceptT.run, StateT.run, bind, ExceptT.bind, ExceptT.mk,
      StateT.bind] at hx ⊢
    rw [hx]
    rfl

/-- An action after another one returns when both return: the inversion that takes a whole conduct
apart. -/
theorem perform_bind_eq_ok {p q : Progress ε} {x : Conduct ε α} {f : α → Conduct ε β} {b : β} :
    p.perform (x >>= f) = (.ok b, q) ↔
      ∃ a r, p.perform x = (.ok a, r) ∧ r.perform (f a) = (.ok b, q) := by
  rw [perform_bind]
  rcases p.perform x with ⟨h | a, r⟩
  · simp
  · constructor
    · intro rest
      exact ⟨a, r, rfl, rest⟩
    · rintro ⟨_, _, same, rest⟩
      cases same
      exact rest

@[simp]
theorem perform_map (p : Progress ε) (f : α → β) (x : Conduct ε α) :
    p.perform (f <$> x) = ((p.perform x).1.map f, (p.perform x).2) := by
  rw [map_eq_pure_bind, perform_bind]
  rcases p.perform x with ⟨h | a, q⟩ <;> rfl

theorem perform_join (p : Progress ε) (platform : Platform ε) (request : JoinRequest) :
    p.perform (Conduct.join platform request) =
      match platform.join request p.scene with
      | (some outcomes, scene) => (.ok outcomes, { p with scene })
      | (none, scene) => (.error .overflow, { p with scene }) := by
  rw [Conduct.join, perform_bind]
  rcases hj : platform.join request p.scene with ⟨_ | outcomes, scene⟩ <;>
    simp [perform_bind, hj, Except.map]

/-- Whether a phase that begins now is skipped, because the run has seen a cancellation or sees one
now. -/
def isCancelled (p : Progress ε) : Bool := p.orchestrator.cancelled || p.scene.controls.runCancelled

/-- The progress `p` once `phase` has begun, with a cancellation noted if there is one. -/
def begun (p : Progress ε) (phase : Phase) : Progress ε :=
  { p with
    orchestrator := { p.orchestrator with state := phase.settled, cancelled := p.isCancelled } }

theorem perform_beginPhase_of_not_ready (p : Progress ε) {phase : Phase}
    (h : ¬phase.Ready p.orchestrator.state) :
    p.perform (Conduct.beginPhase phase) =
      (.error (.refused (.outOfOrder phase p.orchestrator.state)), p) := by
  unfold Phase.Ready at h
  cases hr : phase.required? with
  | none => simp [hr] at h
  | some required =>
    have unequal : p.orchestrator.state ≠ required := by simpa [hr] using h
    simp [Conduct.beginPhase, perform_bind, hr, unequal]

theorem perform_beginPhase_of_ready (p : Progress ε) {phase : Phase}
    (h : phase.Ready p.orchestrator.state) :
    p.perform (Conduct.beginPhase phase) = (.ok !p.isCancelled, p.begun phase) := by
  unfold Phase.Ready at h
  cases hr : phase.required? with
  | none => simp [Conduct.beginPhase, perform_bind, hr, isCancelled, begun, Except.map]
  | some required =>
    have equal : p.orchestrator.state = required := by simpa [hr] using h
    simp [Conduct.beginPhase, perform_bind, hr, equal, isCancelled, begun, Except.map]

/-- The scene in which the calls of `phase` are made. Before setup the observers are marked as
started. -/
def sceneOf (p : Progress ε) (phase : Phase) : Scene ε :=
  if phase = .setup then { p.scene with started := true } else p.scene

@[simp]
theorem inner_sceneOf (p : Progress ε) (phase : Phase) :
    (p.sceneOf phase).inner = p.scene.inner := by
  unfold sceneOf
  split <;> rfl

@[simp]
theorem origin_sceneOf (p : Progress ε) (phase : Phase) :
    (p.sceneOf phase).origin = p.scene.origin := by
  unfold sceneOf
  split <;> rfl

@[simp]
theorem recorder_sceneOf (p : Progress ε) (phase : Phase) :
    (p.sceneOf phase).recorder = p.scene.recorder := by
  unfold sceneOf
  split <;> rfl

@[simp]
theorem emitted_sceneOf (p : Progress ε) (phase : Phase) :
    (p.sceneOf phase).emitted = p.scene.emitted := by
  unfold sceneOf
  split <;> rfl

@[simp]
theorem controls_sceneOf (p : Progress ε) (phase : Phase) :
    (p.sceneOf phase).controls = p.scene.controls := by
  unfold sceneOf
  split <;> rfl

def requestOf (p : Progress ε) (call : Call) : JoinRequest :=
  ⟨p.orchestrator.observers, call, p.orchestrator.phaseLimits⟩

/-- The progress once the calls of a phase that began at `p` have been joined, with their `outcomes`
settled. -/
def settledWith (p : Progress ε) (call : Call) (outcomes : List CallOutcome) (scene : Scene ε) :
    Progress ε :=
  let settlement := Settlement.ofCalls call.phase p.orchestrator.observers outcomes
  { orchestrator :=
      { p.orchestrator with
        state := call.phase.settled
        cancelled := scene.controls.runCancelled
        results := p.orchestrator.results ++ settlement.records }
    scene :=
      (scene.emit settlement.failures).emit
        [Metrics.phaseDuration call.phase.label (scene.clock - p.scene.clock)] }

end Progress

theorem Progress.perform_phase_of_not_ready {ε : Type} (p : Progress ε) (platform : Platform ε)
    {call : Call} (unready : ¬call.phase.Ready p.orchestrator.state) :
    p.perform (Conduct.phase platform call) =
      (.error (.refused (.outOfOrder call.phase p.orchestrator.state)), p) := by
  rw [Conduct.phase, perform_bind, perform_beginPhase_of_not_ready p unready]

theorem Progress.perform_phase_of_cancelled {ε : Type} (p : Progress ε) (platform : Platform ε)
    {call : Call} (ready : call.phase.Ready p.orchestrator.state)
    (cancelled : p.isCancelled = true) :
    p.perform (Conduct.phase platform call) = (.ok none, p.begun call.phase) := by
  simp [Conduct.phase, perform_bind, perform_beginPhase_of_ready p ready, cancelled]

theorem Progress.perform_phase_of_going {ε : Type} (p : Progress ε) (platform : Platform ε)
    {call : Call} (ready : call.phase.Ready p.orchestrator.state) (going : p.isCancelled = false) :
    p.perform (Conduct.phase platform call) =
      match platform.join (p.requestOf call) (p.sceneOf call.phase) with
      | (some outcomes, scene) =>
        (.ok (some (Settlement.ofCalls call.phase p.orchestrator.observers outcomes)),
          p.settledWith call outcomes scene)
      | (none, scene) => (.error .overflow, { p.begun call.phase with scene }) := by
  have begins := p.perform_beginPhase_of_ready ready
  unfold Conduct.phase
  rw [perform_bind, begins, going]
  -- Only setup marks the scene before its calls are made.
  rcases hj : platform.join (p.requestOf call) (p.sceneOf call.phase) with ⟨_ | outcomes, scene⟩ <;>
  by_cases setup : call.phase = .setup <;>
  simp only [requestOf, sceneOf, Orchestrator.phaseLimits, setup, if_true, if_false] at hj <;>
  simp [perform_bind, perform_join, setup, hj, Orchestrator.phaseLimits, begun, settledWith,
    Conduct.endPhase, going, Except.map]

/-- What a phase comes to, with its answer and the progress after it: it is refused, skipped, left
standing, or settled. -/
inductive PhaseResult {ε : Type} (platform : Platform ε) (call : Call) (p : Progress ε) :
    Except Halt (Option Settlement) → Progress ε → Prop
  | refused (unready : ¬call.phase.Ready p.orchestrator.state) :
    PhaseResult platform call p
      (.error (.refused (.outOfOrder call.phase p.orchestrator.state))) p
  | skipped (ready : call.phase.Ready p.orchestrator.state) (cancelled : p.isCancelled = true) :
    PhaseResult platform call p (.ok none) (p.begun call.phase)
  | unjoined (scene : Scene ε) (ready : call.phase.Ready p.orchestrator.state)
    (going : p.isCancelled = false)
    (unjoined : platform.join (p.requestOf call) (p.sceneOf call.phase) = (none, scene)) :
    PhaseResult platform call p (.error .overflow) { p.begun call.phase with scene }
  | joined (outcomes : List CallOutcome) (scene : Scene ε)
    (ready : call.phase.Ready p.orchestrator.state) (going : p.isCancelled = false)
    (joined : platform.join (p.requestOf call) (p.sceneOf call.phase) = (some outcomes, scene)) :
    PhaseResult platform call p
      (.ok (some (.ofCalls call.phase p.orchestrator.observers outcomes)))
      (p.settledWith call outcomes scene)

/-- Every phase does one of the things that `PhaseResult` lists. -/
theorem Progress.phaseResult {ε : Type} {platform : Platform ε} {call : Call} {p q : Progress ε}
    {answer : Except Halt (Option Settlement)}
    (performed : p.perform (Conduct.phase platform call) = (answer, q)) :
    PhaseResult platform call p answer q := by
  by_cases ready : call.phase.Ready p.orchestrator.state
  · cases going : p.isCancelled with
    | true =>
      rw [p.perform_phase_of_cancelled platform ready going] at performed
      cases performed
      exact .skipped ready going
    | false =>
      rw [p.perform_phase_of_going platform ready going] at performed
      rcases joins : platform.join (p.requestOf call) (p.sceneOf call.phase)
        with ⟨_ | outcomes, scene⟩
      · rw [joins] at performed
        cases performed
        exact .unjoined scene ready going joins
      · rw [joins] at performed
        cases performed
        exact .joined outcomes scene ready going joins
  · rw [p.perform_phase_of_not_ready platform ready] at performed
    cases performed
    exact .refused ready

namespace Progress

variable {ε : Type}

/-- What collection does once its phase is over: it merges what was recorded and handed over into
the raw stream. -/
def mergeRaw (p : Progress ε) (settlement : Option Settlement) : Progress ε where
  orchestrator :=
    { p.orchestrator with
      raw :=
        (⟨p.scene.recorder.queue⟩ ++ ⟨(settlement.getD {}).intervals⟩ : Timeline).sort }
  scene := { p.scene with recorder := { p.scene.recorder with queue := [] } }

/-- The timeline that construction makes of all that it has once its phase is over. -/
def finalOf (p : Progress ε) (settlement : Option Settlement) : Timeline :=
  (p.orchestrator.raw ++ ⟨(settlement.getD {}).intervals⟩ ++ ⟨p.scene.recorder.queue⟩ :
    Timeline).sort

/-- What construction does once its phase is over: it closes the recorder and keeps `finalOf`. -/
def mergeFinal (p : Progress ε) (settlement : Option Settlement) : Progress ε where
  orchestrator := { p.orchestrator with final := p.finalOf settlement }
  scene :=
    { p.scene with recorder := ⟨[], true⟩ }.emit [Metrics.intervals (p.finalOf settlement).size]

theorem perform_collect (p : Progress ε) (platform : Platform ε) (dir : String) (window : Window) :
    p.perform (Conduct.collect platform dir window) =
      match p.perform (Conduct.phase platform (.collection dir window)) with
      | (.ok settlement, q) => (.ok (), q.mergeRaw settlement)
      | (.error h, q) => (.error h, q) := by
  rw [Conduct.collect, perform_bind]
  rcases p.perform (Conduct.phase platform (.collection dir window)) with ⟨h | settlement, q⟩
  · rfl
  · simp [perform_bind, Conduct.drain, Recorder.drain_eq, mergeRaw]

theorem perform_construct (p : Progress ε) (platform : Platform ε) (resources : Resources)
    (window : Window) :
    p.perform (Conduct.construct platform resources window) =
      match
        p.perform (Conduct.phase platform (.construction p.orchestrator.raw resources window))
      with
      | (.ok settlement, q) => (.ok (), q.mergeFinal settlement)
      | (.error h, q) => (.error h, q) := by
  simp only [Conduct.construct, perform_bind, perform_get]
  rcases p.perform (Conduct.phase platform (.construction p.orchestrator.raw resources window))
    with ⟨h | settlement, q⟩
  · rfl
  · simp [perform_bind, Conduct.drain, Conduct.closeRecorder, Recorder.drain_eq, Recorder.close,
      mergeFinal, finalOf, Except.map]

def cleanupSettlement (p : Progress ε) (outcomes : List CallOutcome) : Settlement :=
  Settlement.ofCalls .cleanup (p.orchestrator.cleanupTargets p.scene.started) outcomes

def cleanupScene (p : Progress ε) (outcomes : List CallOutcome) (scene : Scene ε) : Scene ε :=
  scene.emit
    ((p.cleanupSettlement outcomes).failures
      ++ [Metrics.phaseDuration Phase.cleanup.label (scene.clock - p.scene.clock)])

/-- The progress once the calls of the last phase, which began at `p`, have been joined and
settled. -/
def cleanedWith (p : Progress ε) (outcomes : List CallOutcome) (scene : Scene ε) : Progress ε where
  orchestrator :=
    { p.orchestrator with
      results := p.orchestrator.results ++ (p.cleanupSettlement outcomes).records
      state := .cleanedUp }
  scene := { p.cleanupScene outcomes scene with recorder := scene.recorder.close }

theorem perform_forceCleanup (p : Progress ε) (platform : Platform ε) :
    p.perform (Conduct.forceCleanup platform) =
      match platform.join (p.orchestrator.cleanupRequest p.scene.started) p.scene with
      | (some outcomes, scene) =>
        (.ok (p.cleanupSettlement outcomes).records,
          { p with scene := p.cleanupScene outcomes scene })
      | (none, scene) => (.error .overflow, { p with scene }) := by
  simp only [Conduct.forceCleanup, perform_bind, perform_get, perform_join]
  rcases platform.join (p.orchestrator.cleanupRequest p.scene.started) p.scene
    with ⟨_ | outcomes, scene⟩ <;> rfl

theorem perform_cleanup_of_cleanedUp (p : Progress ε) (platform : Platform ε)
    (h : p.orchestrator.state = .cleanedUp) :
    p.perform (Conduct.cleanup platform) = (.ok (), p) := by
  simp [Conduct.cleanup, perform_bind, h]

theorem perform_cleanup (p : Progress ε) (platform : Platform ε)
    (h : p.orchestrator.state ≠ .cleanedUp) :
    p.perform (Conduct.cleanup platform) =
      match platform.join (p.orchestrator.cleanupRequest p.scene.started) p.scene with
      | (some outcomes, scene) => (.ok (), p.cleanedWith outcomes scene)
      | (none, scene) => (.error .overflow, { p with scene }) := by
  have force := p.perform_forceCleanup platform
  rcases hj : platform.join (p.orchestrator.cleanupRequest p.scene.started) p.scene
    with ⟨_ | outcomes, scene⟩ <;>
  · rw [hj] at force
    simp [Conduct.cleanup, Conduct.closeRecorder, perform_bind, h, force, cleanedWith,
      cleanupScene]

end Progress

/-- What cleanup comes to, with its answer and the progress after it: again nothing, a join left
standing, or the end of the run. -/
inductive CleanupResult {ε : Type} (platform : Platform ε) (p : Progress ε) :
    Except Halt Unit → Progress ε → Prop
  | again (done : p.orchestrator.state = .cleanedUp) : CleanupResult platform p (.ok ()) p
  | unjoined (scene : Scene ε) (first : p.orchestrator.state ≠ .cleanedUp)
    (unjoined :
      platform.join (p.orchestrator.cleanupRequest p.scene.started) p.scene = (none, scene)) :
    CleanupResult platform p (.error .overflow) { p with scene }
  | joined (outcomes : List CallOutcome) (scene : Scene ε)
    (first : p.orchestrator.state ≠ .cleanedUp)
    (joined : platform.join (p.orchestrator.cleanupRequest p.scene.started) p.scene =
      (some outcomes, scene)) :
    CleanupResult platform p (.ok ()) (p.cleanedWith outcomes scene)

/-- Every cleanup does one of the things that `CleanupResult` lists. -/
theorem Progress.cleanupResult {ε : Type} {platform : Platform ε} {p q : Progress ε}
    {answer : Except Halt Unit} (performed : p.perform (Conduct.cleanup platform) = (answer, q)) :
    CleanupResult platform p answer q := by
  by_cases done : p.orchestrator.state = .cleanedUp
  · rw [p.perform_cleanup_of_cleanedUp platform done] at performed
    cases performed
    exact .again done
  · rw [p.perform_cleanup platform done] at performed
    rcases joins : platform.join (p.orchestrator.cleanupRequest p.scene.started) p.scene
      with ⟨_ | outcomes, scene⟩
    · rw [joins] at performed
      cases performed
      exact .unjoined scene done joins
    · rw [joins] at performed
      cases performed
      exact .joined outcomes scene done joins

end Vigil
