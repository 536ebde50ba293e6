import Vigil.Proofs.Driver
import Vigil.Proofs.Schedule.Commands

/-!
# The order of phases

A phase that is asked for in the wrong state is refused with an error that names both, and then
nothing at all has changed. Neither a whole run nor a session ever asks for one, whatever goes on
between their phases: a whole run comes to its report, and only the report can fail a session.

The module introduces:

* `Conduct.Leads`, when an action takes a run from one state to another, and `Conduct.Reports`, when
  it returns the report of the run that it leaves;
* `Orderly`, what is certain of phases and of both drivers on a platform;
* `Schedule.Untouched`, what a refused phase leaves under a schedule.
-/

namespace Vigil

variable {ε α β : Type}

theorem Phase.ready_iff_required {phase : Phase} {s : State} (working : phase ≠ .cleanup) :
    phase.Ready s ↔ phase.required? = some s := by
  cases phase with
  | cleanup => exact absurd rfl working
  | _ => simp [Phase.Ready, Phase.required?, eq_comm]

/-- A command that returns an error was refused: its phase was not `Ready`. -/
theorem Commanded.of_refused {J : Joins ε} {c : Command} {p q : Progress ε} {e : Error}
    (h : Commanded J c p (.error (.refused e)) q) :
    ¬c.phase.Ready p.orchestrator.state ∧ e = .outOfOrder c.phase p.orchestrator.state ∧ q = p := by
  cases h with
  | refused _ unready => exact ⟨unready, rfl, rfl⟩

/-- Some calls are never joined on `platform`, which is the only way for a whole run not to come to
its end. -/
def Platform.Strands (platform : Platform ε) : Prop :=
  ∃ request scene, (platform.join request scene).1 = none

namespace Conduct

variable {platform : Platform ε} {s s' s'' : State}

/-- On `platform` the action takes a run from the state `s` to the state `s'`, unless it makes calls
that are never joined. It is never refused. -/
def Leads (platform : Platform ε) (s : State) (action : Conduct ε α) (s' : State) : Prop :=
  ∀ p : Progress ε, p.orchestrator.state = s →
    (∃ a q, p.perform action = (.ok a, q) ∧ q.orchestrator.state = s') ∨
    (∃ q, p.perform action = (.error .overflow, q)) ∧ platform.Strands

theorem Leads.bind {x : Conduct ε α} {f : α → Conduct ε β} (first : Leads platform s x s')
    (rest : ∀ a, Leads platform s' (f a) s'') : Leads platform s (x >>= f) s'' := by
  intro p start
  rw [Progress.perform_bind]
  obtain ⟨a, q, ran, reached⟩ | ⟨⟨q, halted⟩, strands⟩ := first p start
  · rw [ran]
    exact rest a q reached
  · rw [halted]
    exact .inr ⟨⟨q, rfl⟩, strands⟩

theorem leads_pure (a : α) : Leads platform s (pure a) s :=
  fun p start => .inl ⟨a, p, rfl, start⟩

theorem leads_get : Leads platform s (get : Conduct ε (Progress ε)) s :=
  fun p start => .inl ⟨p, p, rfl, start⟩

/-- Nothing that happens to a scene changes the state of a run, so a hook of a `Driver` leads
nowhere else. -/
theorem leads_updateScene (f : Scene ε → Scene ε) : Leads platform s (updateScene f) s :=
  fun _ start => .inl ⟨(), _, rfl, start⟩

theorem leads_conduct (c : Command) (phase : Phase) (asks : c.phase = phase)
    (ready : phase.Ready s) : Leads platform s (c.conduct platform) phase.settled := by
  intro p start
  subst asks start
  obtain ⟨answer, q, commanded⟩ := exists_commanded platform c p
  rw [commanded.perform_eq]
  cases commanded with
  | refused _ unready => exact absurd ready unready
  | skipped => exact .inl ⟨(), _, rfl, by simp [Progress.begun]⟩
  | unjoined _ _ _ _ unjoined => exact .inr ⟨⟨_, rfl⟩, _, _, congrArg Prod.fst unjoined⟩
  | joined => exact .inl ⟨(), _, rfl, by simp [Progress.settledWith]⟩
  | again cleanup done =>
    rw [cleanup]
    exact .inl ⟨(), p, rfl, done⟩
  | uncleaned _ _ _ unjoined => exact .inr ⟨⟨_, rfl⟩, _, _, congrArg Prod.fst unjoined⟩
  | cleaned _ _ cleanup =>
    rw [cleanup]
    exact .inl ⟨(), _, rfl, rfl⟩

theorem leads_observe (request : WindowRequest) :
    Leads platform s (observe platform request) s := by
  intro p start
  left
  cases going : p.orchestrator.cancelled <;>
    simp [observe, Progress.perform_bind, going, start, Except.map]

theorem Leads.beside {f : Scene ε → Scene ε} {x : Conduct ε α} (rest : Leads platform s x s') :
    Leads platform s (do updateScene f; x) s' :=
  (leads_updateScene f).bind fun _ => rest

/-- The `action` returns the report of the run that it leaves, if it returns at all. -/
def Reports (action : Conduct ε Report) : Prop :=
  ∀ (p q : Progress ε) (report : Report), p.perform action = (.ok report, q) →
    report = q.orchestrator.report

theorem reports_intoReport : Reports (intoReport : Conduct ε Report) := by
  intro p q report reported
  cases reported
  rfl

theorem Reports.bind (x : Conduct ε α) {f : α → Conduct ε Report} (rest : ∀ a, Reports (f a)) :
    Reports (x >>= f) := by
  intro p q report reported
  obtain ⟨a, r, -, reported⟩ := Progress.perform_bind_eq_ok.1 reported
  exact rest a r q report reported

end Conduct

/-! ## The drivers -/

namespace Driver

open Conduct (Leads Reports leads_conduct leads_updateScene)

variable (platform : Platform ε) (hooks : Hooks ε) (inputs : RunInputs) (window : Window)

theorem leads_setUp (access : ClusterAccess) :
    Leads platform .pending ((on platform hooks).setUp access) .collecting := by
  refine .beside ?_
  refine (leads_conduct (.setup access) .setup rfl (by decide)).bind fun _ => ?_
  exact leads_updateScene _

theorem leads_collect :
    Leads platform .collecting ((on platform hooks).collect inputs window) .collected :=
  .beside (leads_conduct (.collect inputs.storageDir window) .collection rfl (by decide))

/-- From construction to cleanup every phase of a driver is asked for in its order. -/
theorem leads_complete :
    Leads platform .collected ((on platform hooks).complete inputs window) .cleanedUp := by
  refine .beside ?_
  refine (leads_conduct (.construct inputs.resources window) .construction rfl
    (by decide)).bind fun _ => .beside ?_
  refine (leads_conduct .evaluate .evaluation rfl (by decide)).bind fun _ => .beside ?_
  refine (leads_conduct (.store inputs.storageDir inputs.suffix inputs.resources) .storage rfl
    (by decide)).bind fun _ => .beside ?_
  refine (leads_conduct .cleanup .cleanup rfl (by decide)).bind fun _ => .beside ?_
  exact Conduct.leads_get.bind fun q => .beside (Conduct.leads_pure _)

/-- In `Driver.run` every phase is asked for in its order, whatever goes on at the hooks. -/
theorem leads_run : Leads platform .pending ((on platform hooks).run inputs) .cleanedUp := by
  refine (leads_setUp platform hooks inputs.access).bind fun _ => ?_
  refine (Conduct.leads_observe _).bind fun opened => .beside ?_
  refine Conduct.leads_get.bind fun p => ?_
  refine (leads_collect platform hooks inputs _).bind fun _ => ?_
  exact leads_complete platform hooks inputs _

theorem reports_complete : Reports ((on platform hooks).complete inputs window) :=
  .bind _ fun _ => .bind _ fun _ => .bind _ fun _ => .bind _ fun _ => .bind _ fun _ =>
    .bind _ fun _ => .bind _ fun _ => .bind _ fun _ => .bind _ fun _ => Conduct.reports_intoReport

theorem reports_run : Reports ((on platform hooks).run inputs) :=
  .bind _ fun _ => .bind _ fun _ => .bind _ fun _ => .bind _ fun _ => .bind _ fun _ =>
    reports_complete platform hooks inputs _

end Driver

namespace Session

open Conduct (Leads)

variable (s : Session) (platform : Platform ε) (hooks : Hooks ε) (length : Option Duration)

/-- In `Session.reportBy` every phase is asked for in its order, whatever goes on at the hooks. -/
theorem leads_reportBy :
    Leads platform .pending (s.reportBy (.on platform hooks) length) .cleanedUp := by
  have closes : Leads platform .pending (s.closeBy (.on platform hooks) length) .collecting := by
    refine (Driver.leads_setUp platform hooks s.inputs.access).bind fun _ => ?_
    refine (Conduct.leads_observe _).bind fun opened => .beside (.beside ?_)
    exact Conduct.leads_get.bind fun p => Conduct.leads_pure _
  refine closes.bind fun window => ?_
  have collects : Leads platform .collecting (s.collectBy (.on platform hooks) window)
      .collected :=
    .beside (.beside (Driver.leads_collect platform hooks s.inputs window))
  exact collects.bind fun _ => Driver.leads_complete platform hooks s.inputs window

/-- A session fails only if its report cannot be written, and then cleanup is over. -/
theorem refused_executeBy {p : Progress ε} (fresh : p.orchestrator.state = .pending)
    {e : Error}
    (failed : (p.perform (s.executeBy (.on platform hooks) length)).1 = .error (.refused e)) :
    ∃ report q, p.perform (s.reportBy (.on platform hooks) length) = (.ok report, q) ∧
      q.orchestrator.state = .cleanedUp ∧
      (report.write q.scene.files ⟨s.inputs.storageDir⟩ s.inputs.suffix).1 = .error e := by
  rw [executeBy, Progress.perform_bind] at failed
  obtain ⟨report, q, reported, reached⟩ | ⟨⟨q, halted⟩, -⟩ :=
    s.leads_reportBy platform hooks length p fresh
  · refine ⟨report, q, reported, reached, ?_⟩
    rw [reported] at failed
    simp only [writeReport, Progress.perform_bind, Progress.perform_get] at failed
    -- Writing is the only step that is left.
    rcases written : report.write q.scene.files ⟨s.inputs.storageDir⟩ s.inputs.suffix
      with ⟨e' | paths, files⟩ <;> rw [written] at failed <;> cases failed
    rfl
  · rw [halted] at failed
    cases failed

end Session

/-- What is certain of the order of phases on `platform`, whatever its calls do, whoever throws a
switch and whatever goes on at the hooks of a driver. -/
structure Orderly (platform : Platform ε) : Prop where
  /-- A working phase returns an error exactly if the run is in another state than `Phase.required?`
  says. -/
  refused_iff : ∀ (c : Command) (p : Progress ε), c.phase ≠ .cleanup →
    ((∃ e, (p.perform (c.conduct platform)).1 = .error (.refused e)) ↔
      c.phase.required? ≠ some p.orchestrator.state)
  /-- The error names the phase and the state, and nothing at all has changed, the scene
  included. -/
  unchanged : ∀ (c : Command) (p : Progress ε) (e : Error),
    (p.perform (c.conduct platform)).1 = .error (.refused e) →
      e = .outOfOrder c.phase p.orchestrator.state ∧ (p.perform (c.conduct platform)).2 = p
  /-- A whole run of a new orchestrator comes to the report of a run that is cleaned up, unless
  calls are never joined. -/
  run : ∀ (runId : String) (registry : Registry) (limits : Limits) (scene : Scene ε)
    (hooks : Hooks ε) (inputs : RunInputs),
    let result := ((Progress.new runId registry limits scene).perform
      ((Driver.on platform hooks).run inputs)).1
    (∃ report, result = .ok report ∧ report.state = .cleanedUp) ∨
      result = .error .overflow ∧ platform.Strands
  /-- A session of a new orchestrator returns an error only if its report cannot be written, which
  is tried once cleanup is over. -/
  session : ∀ (runId : String) (registry : Registry) (limits : Limits) (scene : Scene ε)
    (hooks : Hooks ε) (s : Session) (length : Option Duration) (e : Error),
    let start := Progress.new runId registry limits scene
    (start.perform (s.executeBy (.on platform hooks) length)).1 = .error (.refused e) →
      ∃ report q, start.perform (s.reportBy (.on platform hooks) length) = (.ok report, q) ∧
        q.orchestrator.state = .cleanedUp ∧
        (report.write q.scene.files ⟨s.inputs.storageDir⟩ s.inputs.suffix).1 = .error e
  /-- Without hooks `Driver.run` is `Conduct.run`. -/
  run_eq : ∀ inputs : RunInputs, (Driver.on platform {}).run inputs = Conduct.run platform inputs
  /-- Without hooks `Session.executeBy` is `Session.executeWith`. -/
  session_eq : ∀ (s : Session) (length : Option Duration),
    s.executeBy (.on platform {}) length = s.executeWith platform length

namespace Schedule

/-- Nothing has become of the run `r`, now `q`, but the time at which it is asked for something. -/
structure Untouched (r q : Run) : Prop where
  orchestrator : q.orchestrator = r.orchestrator
  started : q.scene.started = r.scene.started
  /-- What waits in the recorder is the same, and the recorder is closed if it was before. -/
  recorder : q.scene.recorder = r.scene.recorder
  /-- Nobody was called: every observer has the calls that it had. -/
  calls : ∀ i, q.world.callsOn i = r.world.callsOn i

end Schedule

/-- A phase that is asked for in the wrong state is refused and changes nothing (`Orderly`);
under every schedule nobody is called (`Untouched`). Neither a whole run nor a session ever asks
for one. -/
theorem phase_order :
    (∀ {ε : Type} (platform : Platform ε), Orderly platform) ∧
    ∀ (r : Schedule.Run) (c : Command) (slots : List Schedule.Slot) (e : Error),
      (r.ask c slots).1 = .error (.refused e) → Schedule.Untouched r (r.ask c slots).2 := by
  refine ⟨fun platform => ?_, fun r c slots e refused => ?_⟩
  · -- Of all that a command may come to only a refusal is an answer of this kind.
    have refused_of {c : Command} {p : Progress _} {e : Error}
        (h : (p.perform (c.conduct platform)).1 = .error (.refused e)) :=
      Commanded.of_refused (h ▸ commanded_conduct platform c p)
    exact
      { refused_iff := fun c p working => by
          rw [ne_eq, ← Phase.ready_iff_required working]
          constructor
          · rintro ⟨e, refused⟩
            exact (refused_of refused).1
          · intro unready
            have refuses := (Commanded.refused (J := platform.Makes) working unready).perform_eq
            exact ⟨_, congrArg Prod.fst refuses⟩
        unchanged := fun c p e refused => (refused_of refused).2
        run := fun runId registry limits scene hooks inputs => by
          -- The run asks for each phase right after the one before it, so none is refused.
          obtain ⟨report, q, ran, reached⟩ | ⟨⟨q, halted⟩, strands⟩ :=
            Driver.leads_run platform hooks inputs (.new runId registry limits scene) rfl
          · rw [ran]
            refine .inl ⟨report, rfl, ?_⟩
            rw [Driver.reports_run platform hooks inputs _ q report ran]
            exact reached
          · rw [halted]
            exact .inr ⟨rfl, strands⟩
        session := fun runId registry limits scene hooks s length e failed =>
          s.refused_executeBy platform hooks length rfl failed
        run_eq := Driver.run_quiet platform
        session_eq := fun s length => s.executeBy_quiet platform length }
  · have same : (r.ask c slots).2 = r.updateScene fun s => s.stand .free slots :=
      (Commanded.of_refused (refused ▸ Schedule.asked_ask c slots r)).2.2
    rw [same]
    exact ⟨rfl, rfl, rfl, fun _ => rfl⟩

end Vigil
