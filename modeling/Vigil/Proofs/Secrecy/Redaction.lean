import Vigil.Proofs.Command
import Vigil.Session

/-!
# Redaction

Redaction puts a mark in the place of every secret and leaves all else as it is. A platform conceals
secrets if it answers redacted calls as it answers the others. On such a platform a session whose
access has been redacted goes the same way as before: it answers the same, and it leaves the same
behind, except for what the platform keeps for itself.

The module introduces:

* `ClusterAccess.redact`, and what it means for calls, requests, commands and sessions;
* `Scene.map` and `Progress.map`, which change what the platform keeps and nothing else;
* `Platform.Conceals`, and `Conduct.Mirrors`, when an action does the same as another one on what
  has been redacted.
-/

namespace Vigil

namespace ClusterAccess

def mark : String := "secret"

/-- The access `a` with marks in place of the secrets. Whether there is a secret still shows. -/
def redact (a : ClusterAccess) : ClusterAccess :=
  { a with
    bearerToken := a.bearerToken.map fun _ => mark
    clientCertificate := a.clientCertificate.map fun _ => mark
    clientKey := a.clientKey.map fun _ => mark
    certificateAuthority := a.certificateAuthority.map fun _ => mark }

@[simp]
theorem debugText_redact (a : ClusterAccess) : a.redact.debugText = a.debugText := by
  have same (m : String) (o : Option String) : masked m (o.map fun _ => mark) = masked m o := by
    cases o with
    | none => rfl
    | some secret => rw [Option.map_some, masked, masked]
  unfold debugText redact
  rw [same, same, same, same]

@[simp]
theorem facts_redact (a : ClusterAccess) : a.redact.facts = a.facts := by
  simp [facts, authMode, redact]

end ClusterAccess

/-- The call with marks in place of the secrets. Only `setup` is given any. -/
def Call.redact : Call → Call
  | .setup access => .setup access.redact
  | c => c

@[simp]
theorem Call.phase_redact (c : Call) : c.redact.phase = c.phase := by
  cases c <;> rfl

def JoinRequest.redact (r : JoinRequest) : JoinRequest := { r with call := r.call.redact }

def Command.redact : Command → Command
  | .setup access => .setup access.redact
  | c => c

@[simp]
theorem Command.phase_redact (c : Command) : c.redact.phase = c.phase := by
  cases c <;> rfl

/-- The session `s` with marks in place of the secrets that it gives to setup. -/
def Session.redact (s : Session) : Session :=
  { s with inputs := { s.inputs with access := s.inputs.access.redact } }

/-! ## What a platform keeps for itself -/

section Map

variable {ε : Type} (h : ε → ε)

/-- The scene `s` after the change `h` of what the platform keeps. All that the orchestrator reads
stays. -/
def Scene.map (s : Scene ε) : Scene ε := { s with inner := h s.inner }

@[simp]
theorem Scene.inner_map (s : Scene ε) : (s.map h).inner = h s.inner := rfl

@[simp]
theorem Scene.files_map (s : Scene ε) : (s.map h).files = s.files := rfl

def Progress.map (p : Progress ε) : Progress ε := { p with scene := p.scene.map h }

variable (p : Progress ε)

@[simp]
theorem Progress.orchestrator_map : (p.map h).orchestrator = p.orchestrator := rfl

theorem Progress.sceneOf_map (phase : Phase) :
    (p.map h).sceneOf phase = (p.sceneOf phase).map h := by
  unfold sceneOf
  split <;> rfl

theorem Command.call_redact (c : Command) : c.redact.call (p.map h) = (c.call p).redact := by
  cases c <;> rfl

theorem Progress.requestOf_redact (call : Call) :
    (p.map h).requestOf call.redact = (p.requestOf call).redact := rfl

theorem Command.settle_redact (c : Command) (settlement : Option Settlement) :
    c.redact.settle settlement (p.map h) = (c.settle settlement p).map h := by
  cases c <;> rfl

end Map

/-- The platform conceals what `h` changes: it does with redacted calls, and with what it keeps
changed by `h`, what it does with the others, up to that change. -/
structure Platform.Conceals {ε : Type} (platform : Platform ε) (h : ε → ε) : Prop where
  join : ∀ (request : JoinRequest) (s : Scene ε),
    platform.join request.redact (s.map h) =
      ((platform.join request s).1, (platform.join request s).2.map h)
  awaitWindow : ∀ (request : WindowRequest) (s : Scene ε),
    platform.awaitWindow request (s.map h) = (platform.awaitWindow request s).map h
  wallClock : ∀ s : Scene ε, platform.wallClock (s.map h) = platform.wallClock s

namespace Conduct

variable {ε α β : Type} {h : ε → ε} {platform : Platform ε}

/-- The second action does on progress changed by `h` what the first one does: the relation by which
two sessions are compared step by step. -/
def Mirrors (h : ε → ε) (action action' : Conduct ε α) : Prop :=
  ∀ p : Progress ε,
    (p.map h).perform action' = ((p.perform action).1, (p.perform action).2.map h)

theorem Mirrors.bind {x x' : Conduct ε α} {f f' : α → Conduct ε β} (first : Mirrors h x x')
    (rest : ∀ a, Mirrors h (f a) (f' a)) : Mirrors h (x >>= f) (x' >>= f') := by
  intro p
  rw [Progress.perform_bind, Progress.perform_bind, first p]
  rcases p.perform x with ⟨halt | a, q⟩
  · rfl
  · exact rest a q

theorem Mirrors.get_bind {f f' : Progress ε → Conduct ε β}
    (rest : ∀ p, Mirrors h (f p) (f' (p.map h))) : Mirrors h (get >>= f) (get >>= f') := by
  intro p
  rw [Progress.perform_bind, Progress.perform_bind]
  exact rest p p

theorem mirrors_pure (a : α) : Mirrors h (pure a) (pure a) := fun _ => rfl

theorem mirrors_updateScene {f : Scene ε → Scene ε} (apart : ∀ s, f (s.map h) = (f s).map h) :
    Mirrors h (updateScene f) (updateScene f) := by
  intro p
  change (Except.ok (), Progress.mk p.orchestrator (f (p.scene.map h))) = _
  rw [apart p.scene]
  rfl

/-- A command does the same when it is redacted, on a platform that conceals. -/
theorem mirrors_conduct (conceals : platform.Conceals h) (c : Command) :
    Mirrors h (c.conduct platform) (c.redact.conduct platform) := by
  intro p
  obtain ⟨answer, q, commanded⟩ := exists_commanded platform c p
  rw [commanded.perform_eq]
  apply Commanded.perform_eq
  -- Every case of the command is the same case of the redacted one.
  have joins {request : JoinRequest} {s scene : Scene ε} {outcomes : Option (List CallOutcome)}
      (makes : platform.Makes request s outcomes scene) :
      platform.Makes request.redact (s.map h) outcomes (scene.map h) := by
    rw [Platform.Makes, conceals.join request s, makes]
  have calls {outcomes : Option (List CallOutcome)} {scene : Scene ε}
      (makes : platform.Makes (p.requestOf (c.call p)) (p.sceneOf c.phase) outcomes scene) :
      platform.Makes ((p.map h).requestOf (c.redact.call (p.map h)))
        ((p.map h).sceneOf c.redact.phase) outcomes (scene.map h) := by
    rw [c.call_redact h p, p.requestOf_redact h, c.phase_redact, p.sceneOf_map h]
    exact joins makes
  cases commanded with
  | refused working unready =>
    rw [← c.phase_redact] at working unready ⊢
    exact .refused working unready
  | skipped working ready cancelled =>
    rw [← c.settle_redact h, ← c.phase_redact]
    rw [← c.phase_redact] at working ready
    exact .skipped working ready cancelled
  | unjoined scene working ready going unjoined =>
    have made := calls unjoined
    rw [← c.phase_redact] at working ready
    have same := Commanded.unjoined (p := p.map h) (scene.map h) working ready going made
    rw [c.phase_redact] at same
    exact same
  | joined outcomes scene working ready going joined =>
    have made := calls joined
    rw [← c.phase_redact] at working ready
    have same := Commanded.joined (p := p.map h) outcomes (scene.map h) working ready going made
    rw [← c.settle_redact h]
    rw [c.phase_redact, c.call_redact h p] at same
    have settled : (p.map h).settledWith (c.call p).redact outcomes (scene.map h) =
        (p.settledWith (c.call p) outcomes scene).map h := by
      simp only [Progress.settledWith, Call.phase_redact]
      rfl
    rw [settled] at same
    exact same
  | again cleanup done => exact .again (c.phase_redact.trans cleanup) done
  | uncleaned scene cleanup first unjoined =>
    exact .uncleaned (scene.map h) (c.phase_redact.trans cleanup) first (joins unjoined)
  | cleaned outcomes scene cleanup first joined =>
    exact .cleaned outcomes (scene.map h) (c.phase_redact.trans cleanup) first (joins joined)

theorem mirrors_observe (conceals : platform.Conceals h) (request : WindowRequest) :
    Mirrors h (observe platform request) (observe platform request) := by
  refine Mirrors.get_bind fun p => ?_
  have waits : Mirrors h (updateScene (platform.awaitWindow request))
      (updateScene (platform.awaitWindow request)) :=
    mirrors_updateScene (conceals.awaitWindow request)
  have reads : platform.wallClock (p.map h).scene = platform.wallClock p.scene :=
    conceals.wallClock p.scene
  rw [reads, p.orchestrator_map]
  cases p.orchestrator.cancelled
  · exact waits.bind fun _ => mirrors_pure _
  · exact (mirrors_pure ()).bind fun _ => mirrors_pure _

theorem mirrors_intoReport : Mirrors h intoReport intoReport := fun _ => rfl

end Conduct

open Conduct (Mirrors)

namespace Session

variable {ε : Type} {h : ε → ε} {platform : Platform ε}

theorem mirrors_writeReport (s : Session) (report : Report) :
    Mirrors h (s.writeReport report : Conduct ε Summary) (s.redact.writeReport report) := by
  refine Mirrors.get_bind fun p => ?_
  have written : report.write (p.map h).scene.files ⟨s.redact.inputs.storageDir⟩
      s.redact.inputs.suffix =
        report.write p.scene.files ⟨s.inputs.storageDir⟩ s.inputs.suffix := rfl
  rw [written]
  rcases report.write p.scene.files ⟨s.inputs.storageDir⟩ s.inputs.suffix with ⟨e | paths, files⟩
  · intro q
    rfl
  · intro q
    rfl

/-- A session does the same when it is redacted, step by step from setup to the files of its
report. -/
theorem mirrors_executeWith (conceals : platform.Conceals h) (s : Session)
    (length : Option Duration) :
    Mirrors h (s.executeWith platform length) (s.redact.executeWith platform length) := by
  unfold executeWith
  refine (Conduct.mirrors_conduct conceals (.setup s.inputs.access)).bind fun _ => ?_
  refine (Conduct.mirrors_observe conceals (.span length)).bind fun opened => ?_
  have ends : Mirrors h
      (Conduct.updateScene fun scene => { scene with controls := scene.controls.endWindow })
      (Conduct.updateScene fun scene => { scene with controls := scene.controls.endWindow }) :=
    Conduct.mirrors_updateScene fun _ => rfl
  refine ends.bind fun _ => ?_
  refine Mirrors.get_bind fun p => ?_
  have reads : platform.wallClock (p.map h).scene = platform.wallClock p.scene :=
    conceals.wallClock p.scene
  -- Both read the same clock, so both have the same window.
  rw [reads]
  generalize Window.mk opened (platform.wallClock p.scene) = window
  have records : Mirrors h (recordInterval window.interval) (recordInterval window.interval) :=
    Conduct.mirrors_updateScene fun _ => rfl
  refine records.bind fun _ => ?_
  have finish : Mirrors h (Conduct.finish platform s.inputs window)
      (Conduct.finish platform s.redact.inputs window) := by
    refine (Conduct.mirrors_conduct conceals (.collect s.inputs.storageDir window)).bind fun _ => ?_
    refine
      (Conduct.mirrors_conduct conceals (.construct s.inputs.resources window)).bind fun _ => ?_
    refine (Conduct.mirrors_conduct conceals .evaluate).bind fun _ => ?_
    exact Conduct.mirrors_conduct conceals
      (.store s.inputs.storageDir s.inputs.suffix s.inputs.resources)
  refine finish.bind fun _ => ?_
  refine (Conduct.mirrors_conduct conceals .cleanup).bind fun _ => ?_
  refine Conduct.mirrors_intoReport.bind fun report => ?_
  exact s.mirrors_writeReport report

end Session
end Vigil
