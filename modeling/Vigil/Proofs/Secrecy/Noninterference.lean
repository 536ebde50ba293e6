import Vigil.Program
import Vigil.Proofs.Secrecy.Post

/-!
# Secrets leave no trace

Two configurations may differ in what their secrets say, as long as the same of them are missing.
Then two runs of the built-in observer that go the same way otherwise leave the same behind: the
same files, the same records, the same line for the user and the same exit status. Nothing that a
run leaves behind depends on a secret, whatever goes on beside it, forced cleanups included.

The module introduces:

* `Config.Alike`, configurations that differ in the contents of secrets at most;
* `SameTraces`, when two sessions have left the same behind;
* `Unseen`, what is certain of two configurations that are alike.
-/

namespace Vigil

/-- The configurations `c` and `d` differ in the contents of secrets at most: whether there is one
is the same in both. -/
structure Config.Alike (c d : Config) : Prop where
  general : d.general = c.general
  lifecycle : d.lifecycle = c.lifecycle
  observers : d.observers = c.observers
  host : d.cluster.host = c.cluster.host
  insecureSkipTlsVerify : d.cluster.insecureSkipTlsVerify = c.cluster.insecureSkipTlsVerify
  bearerToken : d.cluster.bearerToken.isEmpty = c.cluster.bearerToken.isEmpty
  clientCertificate : d.cluster.clientCertificate.isEmpty = c.cluster.clientCertificate.isEmpty
  clientKey : d.cluster.clientKey.isEmpty = c.cluster.clientKey.isEmpty
  certificateAuthority :
    d.cluster.certificateAuthority.isEmpty = c.cluster.certificateAuthority.isEmpty

/-- Without the contents of secrets the accesses of both configurations are the same. -/
theorem Config.Alike.redact_ofConfig {c d : Config} (alike : c.Alike d) :
    (ClusterAccess.ofConfig d).redact = (ClusterAccess.ofConfig c).redact := by
  have same {s t : String} (empty : t.isEmpty = s.isEmpty) :
      ((ClusterAccess.present t).map fun _ => ClusterAccess.mark) =
        (ClusterAccess.present s).map fun _ => ClusterAccess.mark := by
    unfold ClusterAccess.present
    rw [empty]
    split <;> rfl
  simp only [ClusterAccess.redact, ClusterAccess.ofConfig, alike.host, alike.insecureSkipTlsVerify,
    same alike.bearerToken, same alike.clientCertificate, same alike.clientKey,
    same alike.certificateAuthority]

/-- Two sessions have left the same behind, as far as anybody but the observer can see: `x` and `y`
are what they answered and what they came to. -/
structure SameTraces {ε : Type} (x y : Except Halt Summary × Progress ε) : Prop where
  answer : y.1 = x.1
  /-- The records are the same, also if there is no report. -/
  results : y.2.orchestrator.results = x.2.orchestrator.results
  files : y.2.scene.files = x.2.scene.files
  summaryLine : (y.1.toOption.map fun s => s.report.summaryLine) =
    x.1.toOption.map fun s => s.report.summaryLine
  exit : Program.exitOfSession y.1 = Program.exitOfSession x.1

theorem SameTraces.answer_files {ε : Type} {x y : Except Halt Summary × Progress ε}
    (same : SameTraces x y) :
    Prod.map id (fun q : Progress ε => q.scene.files) y =
      Prod.map id (fun q : Progress ε => q.scene.files) x :=
  Prod.ext same.answer same.files

/-- On a platform that conceals secrets, sessions that are the same without secrets leave the same
behind. What a session shows does not look into what `h` changes. -/
theorem Session.sameTraces {ε : Type} {h : ε → ε} {platform : Platform ε}
    (conceals : platform.Conceals h) {s s' : Session} (sessions : s'.redact = s.redact)
    (length : Option Duration) (p : Progress ε) :
    SameTraces (p.perform (s.executeWith platform length))
      (p.perform (s'.executeWith platform length)) := by
  have first := s.mirrors_executeWith conceals length p
  have second := s'.mirrors_executeWith conceals length p
  rw [sessions, first] at second
  obtain ⟨answer, progress⟩ := Prod.ext_iff.1 second
  have results := congrArg (fun q : Progress ε => q.orchestrator.results) progress
  have files := congrArg (fun q : Progress ε => q.scene.files) progress
  dsimp only at answer
  exact
    { answer := answer.symm
      results := results.symm
      files := files.symm
      summaryLine := by rw [answer]
      exit := by rw [answer] }

namespace Runner

/-- A session of the runner `r` with `resources` as the objects of the cluster at its end. -/
def prepareWith (r : Runner) (suffix : String) (resources : Resources) : Session :=
  let s := r.prepare suffix
  { s with inputs := { s.inputs with resources } }

theorem prepareWith_empty (r : Runner) (suffix : String) :
    r.prepareWith suffix .empty = r.prepare suffix := rfl

/-- A session of the built-in observer at its post, whose script says what goes on beside the run
and which steps its calls take. -/
def attend (r : Runner) (runId suffix : String) (resources : Resources) (scene : Scene Post) :
    Except Halt Summary × Progress Post :=
  (r.begin runId scene).perform ((r.prepareWith suffix resources).execute Post.platform)

end Runner

theorem Runner.eq_of_ofConfig {c : Config} {r : Runner} (valid : Runner.ofConfig c = .ok r) :
    r = ⟨c, builtinRegistry c.observers⟩ := by
  unfold Runner.ofConfig at valid
  split at valid
  · cases valid
  · exact (Except.ok.inj valid).symm

namespace Config.Alike

variable {c d : Config} (alike : c.Alike d)

include alike

theorem redact_prepareWith (registry registry' : Registry) (suffix : String)
    (resources : Resources) :
    (Runner.prepareWith ⟨d, registry'⟩ suffix resources).redact =
      (Runner.prepareWith ⟨c, registry⟩ suffix resources).redact := by
  simp only [Session.redact, Runner.prepareWith, Runner.prepare, alike.redact_ofConfig,
    alike.general, alike.lifecycle]

theorem windowLength (registry registry' : Registry) (suffix : String) (resources : Resources) :
    (Runner.prepareWith ⟨d, registry'⟩ suffix resources).windowLength =
      (Runner.prepareWith ⟨c, registry⟩ suffix resources).windowLength :=
  congrArg (fun l : LifecycleSettings => Runner.windowLength l.workloadSecs) alike.lifecycle

theorem begin_eq {ε : Type} (runId : String) (scene : Scene ε) :
    Runner.begin ⟨d, builtinRegistry d.observers⟩ runId scene =
      Runner.begin ⟨c, builtinRegistry c.observers⟩ runId scene := by
  simp only [Runner.begin, alike.observers, alike.lifecycle]

end Config.Alike

/-- What is certain of the runners `r` and `r'` of two configurations that are `Alike`. -/
structure Unseen (c d : Config) (r r' : Runner) : Prop where
  debugText : (ClusterAccess.ofConfig d).debugText = (ClusterAccess.ofConfig c).debugText
  facts : (ClusterAccess.ofConfig d).facts = (ClusterAccess.ofConfig c).facts
  /-- Whatever the script of both runs says, forced cleanups included, they leave the same
  behind. -/
  posts : ∀ (runId suffix : String) (resources : Resources) (scene : Scene Post),
    SameTraces (r.attend runId suffix resources scene) (r'.attend runId suffix resources scene)
  /-- So do both live runs. -/
  live : ∀ (runId suffix : String) (files : FileTree) (origin : Nat) (opened closed : Timestamp),
    SameTraces (Live.runSession r runId suffix files origin opened closed)
      (Live.runSession r' runId suffix files origin opened closed)
  executed : ∀ (runId suffix : String) (files : FileTree) (origin : Nat)
      (opened closed : Timestamp),
    Live.execute r' runId suffix files origin opened closed =
      Live.execute r runId suffix files origin opened closed

/-- What secrets say has no influence on what a run of the built-in observer leaves behind: neither
on its answer nor on its files, nor on what the user is told. -/
theorem secrets_leave_no_trace {c d : Config} {r r' : Runner} (alike : c.Alike d)
    (valid : Runner.ofConfig c = .ok r) (valid' : Runner.ofConfig d = .ok r') :
    Unseen c d r r' := by
  obtain rfl := Runner.eq_of_ofConfig valid
  obtain rfl := Runner.eq_of_ofConfig valid'
  have redacted := alike.redact_ofConfig
  -- Both runs are the same once the secrets in their inputs are redacted.
  have live (runId suffix : String) (files : FileTree) (origin : Nat)
      (opened closed : Timestamp) :
      SameTraces
        (Live.runSession ⟨c, builtinRegistry c.observers⟩ runId suffix files origin opened closed)
        (Live.runSession ⟨d, builtinRegistry d.observers⟩ runId suffix files origin opened
          closed) := by
    unfold Live.runSession Session.execute
    rw [← Runner.prepareWith_empty, ← Runner.prepareWith_empty, alike.begin_eq, alike.windowLength]
    exact Session.sameTraces Live.conceals_platform (alike.redact_prepareWith _ _ suffix .empty) _ _
  refine ⟨?_, ?_, fun runId suffix resources scene => ?_, live,
    fun runId suffix files origin opened closed =>
      (live runId suffix files origin opened closed).answer_files⟩
  · rw [← ClusterAccess.debugText_redact, redacted, ClusterAccess.debugText_redact]
  · rw [← ClusterAccess.facts_redact, redacted, ClusterAccess.facts_redact]
  · unfold Runner.attend Session.execute
    rw [alike.begin_eq, alike.windowLength]
    exact Session.sameTraces Post.conceals_platform (alike.redact_prepareWith _ _ suffix resources)
      _ _

def tokenConfig (token : String) : Config := { cluster := { bearerToken := token } }

def tokenRunner (token : String) : Runner := ⟨tokenConfig token, builtinRegistry {}⟩

theorem ofConfig_tokenConfig (token : String) :
    Runner.ofConfig (tokenConfig token) = .ok (tokenRunner token) := by
  -- No condition looks at the token.
  have valid : (tokenConfig token).validate = (tokenConfig "").validate := rfl
  have standard : (tokenConfig "").validate = .ok () := by decide +kernel
  rw [Runner.ofConfig, valid, standard]
  rfl

/-- Two tokens leave the same behind, though the two configurations are not the same. -/
theorem secrets_leave_no_trace_of_tokens :
    tokenConfig "alpha" ≠ tokenConfig "beta" ∧
      Unseen (tokenConfig "alpha") (tokenConfig "beta") (tokenRunner "alpha")
        (tokenRunner "beta") := by
  refine ⟨by decide, secrets_leave_no_trace ?_ (ofConfig_tokenConfig _) (ofConfig_tokenConfig _)⟩
  exact
    { general := rfl
      lifecycle := rfl
      observers := rfl
      host := rfl
      insecureSkipTlsVerify := rfl
      bearerToken := by decide
      clientCertificate := rfl
      clientKey := rfl
      certificateAuthority := rfl }

/-- The call of `round` takes `steps` and ends, and the run takes its outcome over. -/
def Post.serve (round : Nat) (steps : List Deed) : List Cue :=
  (Deed.beside (.enter round 0) rfl :: steps ++ [Deed.returns round 0]).map .deed ++
    [.run, .run, .run]

def Post.cleans (caller : Nat) : List Deed :=
  [.steps (.comes caller) rfl, .steps .forgets rfl, .steps .finishes rfl]

open Post (serve cleans)

/-- A cleanup is forced while the window is open, and the run ends well all the same. -/
example :
    let script := serve 0 [.notes 0 0, .steps (.stores 0) rfl] ++ (cleans 1).map .deed ++ [.run] ++
      serve 1 [] ++ serve 2 [] ++ serve 3 [] ++ serve 4 [] ++ serve 5 (cleans 0)
    ((tokenRunner "alpha").attend "run" "" .empty
      { origin := 0, inner := { script } }).1.toOption.map Summary.isFailure = some false := by
  decide +kernel

end Vigil
