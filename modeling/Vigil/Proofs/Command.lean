import Vigil.Proofs.Conduct

/-!
# What a command does

An orchestrator can be asked for its six phases. What a command does is one of a few things: it is
refused, it is skipped after a cancellation, its calls are never joined, or they are joined and
settled; a cleanup that was carried out before does nothing. These cases are the same on every
platform, whatever its joins are like.

The module introduces:

* `Command`, what can be asked for, and `Command.conduct`, what that does on a platform;
* `Command.call`, the call that a command makes, and `Command.settle`, what it does after its phase;
* `Commanded`, the cases of a command.
-/

namespace Vigil

/-- What can be asked of an orchestrator: its six phases, with their inputs. -/
inductive Command where
  | setup (access : ClusterAccess)
  | collect (dir : String) (window : Window)
  | construct (resources : Resources) (window : Window)
  | evaluate
  | store (dir suffix : String) (resources : Resources)
  | cleanup

namespace Command

variable {ε : Type}

def phase : Command → Phase
  | setup _ => .setup
  | collect .. => .collection
  | construct .. => .construction
  | evaluate => .evaluation
  | store .. => .storage
  | cleanup => .cleanup

/-- What a command does: the `Conduct` of its phase. -/
def conduct (platform : Platform ε) : Command → Conduct ε Unit
  | setup access => Conduct.setup platform access
  | collect dir window => Conduct.collect platform dir window
  | construct resources window => Conduct.construct platform resources window
  | evaluate => Conduct.evaluate platform
  | store dir suffix resources => Conduct.store platform dir suffix resources
  | cleanup => Conduct.cleanup platform

/-- The call that the command `c` makes on every observer, which for construction and evaluation
depends on what the run has come to. -/
def call (c : Command) (p : Progress ε) : Call :=
  match c with
  | setup access => .setup access
  | collect dir window => .collection dir window
  | construct resources window => .construction p.orchestrator.raw resources window
  | evaluate => .evaluation p.orchestrator.final
  | store dir suffix resources => .storage dir suffix p.orchestrator.final resources
  | cleanup => .cleanup

@[simp]
theorem phase_call (c : Command) (p : Progress ε) : (c.call p).phase = c.phase := by
  cases c <;> rfl

/-- What the command `c` does once its phase is over: collection and construction merge what was
handed over, all others do nothing. -/
def settle (c : Command) (settlement : Option Settlement) (p : Progress ε) : Progress ε :=
  match c with
  | collect .. => p.mergeRaw settlement
  | construct .. => p.mergeFinal settlement
  | _ => p

section Settle

variable (c : Command) (settlement : Option Settlement) (p : Progress ε)

@[simp]
theorem observers_settle :
    (c.settle settlement p).orchestrator.observers = p.orchestrator.observers := by
  cases c <;> rfl

@[simp]
theorem limits_settle : (c.settle settlement p).orchestrator.limits = p.orchestrator.limits := by
  cases c <;> rfl

@[simp]
theorem state_settle : (c.settle settlement p).orchestrator.state = p.orchestrator.state := by
  cases c <;> rfl

@[simp]
theorem cancelled_settle :
    (c.settle settlement p).orchestrator.cancelled = p.orchestrator.cancelled := by
  cases c <;> rfl

@[simp]
theorem results_settle :
    (c.settle settlement p).orchestrator.results = p.orchestrator.results := by
  cases c <;> rfl

@[simp]
theorem clock_settle : (c.settle settlement p).scene.clock = p.scene.clock := by
  cases c <;> rfl

@[simp]
theorem origin_settle : (c.settle settlement p).scene.origin = p.scene.origin := by
  cases c <;> rfl

@[simp]
theorem started_settle : (c.settle settlement p).scene.started = p.scene.started := by
  cases c <;> rfl

@[simp]
theorem controls_settle : (c.settle settlement p).scene.controls = p.scene.controls := by
  cases c <;> rfl

@[simp]
theorem inner_settle : (c.settle settlement p).scene.inner = p.scene.inner := by
  cases c <;> rfl

end Settle

theorem perform_conduct (platform : Platform ε) {c : Command} (working : c.phase ≠ .cleanup)
    (p : Progress ε) :
    p.perform (c.conduct platform) =
      match p.perform (Conduct.phase platform (c.call p)) with
      | (.ok settlement, q) => (.ok (), c.settle settlement q)
      | (.error h, q) => (.error h, q) := by
  -- The phase is the same for all of them, so each command is opened up to the one call of it.
  cases c with
  | setup access =>
    simp only [conduct, Conduct.setup, Progress.perform_bind, call]
    rcases p.perform (Conduct.phase platform (.setup access)) with ⟨h | settlement, q⟩ <;> rfl
  | collect dir window =>
    rw [conduct, Progress.perform_collect, call]
    rcases p.perform (Conduct.phase platform (.collection dir window)) with ⟨h | settlement, q⟩ <;>
      rfl
  | construct resources window =>
    rw [conduct, Progress.perform_construct, call]
    rcases p.perform (Conduct.phase platform (.construction p.orchestrator.raw resources window))
      with ⟨h | settlement, q⟩ <;> rfl
  | evaluate =>
    simp only [conduct, Conduct.evaluate, Progress.perform_bind, Progress.perform_get, call]
    rcases p.perform (Conduct.phase platform (.evaluation p.orchestrator.final))
      with ⟨h | settlement, q⟩ <;> rfl
  | store dir suffix resources =>
    simp only [conduct, Conduct.store, Progress.perform_bind, Progress.perform_get, call]
    rcases p.perform
        (Conduct.phase platform (.storage dir suffix p.orchestrator.final resources))
      with ⟨h | settlement, q⟩ <;> rfl
  | cleanup => exact absurd rfl working

end Command

/-- How the calls of a request are joined: the outcomes, if there are any, and the scene after it,
as a relation. -/
abbrev Joins (ε : Type) := JoinRequest → Scene ε → Option (List CallOutcome) → Scene ε → Prop

/-- How `platform` joins calls, as a relation that lemmas about commands can be weakened along. -/
def Platform.Makes {ε : Type} (platform : Platform ε) : Joins ε :=
  fun request s outcomes s' => platform.join request s = (outcomes, s')

/-- What the command `c` does, with its answer and the progress after it, if its calls are joined
as `J` says. It says all that a command can come to, so that later proofs need not look into
`Conduct`. -/
inductive Commanded {ε : Type} (J : Joins ε) (c : Command) (p : Progress ε) :
    Except Halt Unit → Progress ε → Prop
  | refused (working : c.phase ≠ .cleanup) (unready : ¬c.phase.Ready p.orchestrator.state) :
    Commanded J c p (.error (.refused (.outOfOrder c.phase p.orchestrator.state))) p
  | skipped (working : c.phase ≠ .cleanup) (ready : c.phase.Ready p.orchestrator.state)
    (cancelled : p.isCancelled = true) :
    Commanded J c p (.ok ()) (c.settle none (p.begun c.phase))
  | unjoined (scene : Scene ε) (working : c.phase ≠ .cleanup)
    (ready : c.phase.Ready p.orchestrator.state) (going : p.isCancelled = false)
    (unjoined : J (p.requestOf (c.call p)) (p.sceneOf c.phase) none scene) :
    Commanded J c p (.error .overflow) { p.begun c.phase with scene }
  | joined (outcomes : List CallOutcome) (scene : Scene ε) (working : c.phase ≠ .cleanup)
    (ready : c.phase.Ready p.orchestrator.state) (going : p.isCancelled = false)
    (joined : J (p.requestOf (c.call p)) (p.sceneOf c.phase) (some outcomes) scene) :
    Commanded J c p (.ok ())
      (c.settle (some (Settlement.ofCalls c.phase p.orchestrator.observers outcomes))
        (p.settledWith (c.call p) outcomes scene))
  | again (cleanup : c.phase = .cleanup) (done : p.orchestrator.state = .cleanedUp) :
    Commanded J c p (.ok ()) p
  | uncleaned (scene : Scene ε) (cleanup : c.phase = .cleanup)
    (first : p.orchestrator.state ≠ .cleanedUp)
    (unjoined : J (p.orchestrator.cleanupRequest p.scene.started) p.scene none scene) :
    Commanded J c p (.error .overflow) { p with scene }
  | cleaned (outcomes : List CallOutcome) (scene : Scene ε) (cleanup : c.phase = .cleanup)
    (first : p.orchestrator.state ≠ .cleanedUp)
    (joined :
      J (p.orchestrator.cleanupRequest p.scene.started) p.scene (some outcomes) scene) :
    Commanded J c p (.ok ()) (p.cleanedWith outcomes scene)

variable {ε : Type}

/-- A command makes its calls in one join at most, so what holds of that join can be put in its
place. -/
theorem Commanded.mono {J J' : Joins ε} {c : Command} {p q : Progress ε}
    {answer : Except Halt Unit} (h : Commanded J c p answer q)
    (imp : ∀ request s outcomes s', J request s outcomes s' → J' request s outcomes s') :
    Commanded J' c p answer q := by
  cases h with
  | refused working unready => exact .refused working unready
  | skipped working ready cancelled => exact .skipped working ready cancelled
  | unjoined scene working ready going unjoined =>
    exact .unjoined scene working ready going (imp _ _ _ _ unjoined)
  | joined outcomes scene working ready going joined =>
    exact .joined outcomes scene working ready going (imp _ _ _ _ joined)
  | again cleanup done => exact .again cleanup done
  | uncleaned scene cleanup first unjoined =>
    exact .uncleaned scene cleanup first (imp _ _ _ _ unjoined)
  | cleaned outcomes scene cleanup first joined =>
    exact .cleaned outcomes scene cleanup first (imp _ _ _ _ joined)

theorem Command.eq_cleanup {c : Command} (h : c.phase = .cleanup) : c = .cleanup := by
  cases c with
  | cleanup => rfl
  | _ => cases h

theorem Commanded.perform_eq {platform : Platform ε} {c : Command} {p q : Progress ε}
    {answer : Except Halt Unit} (h : Commanded platform.Makes c p answer q) :
    p.perform (c.conduct platform) = (answer, q) := by
  cases h with
  | refused working unready =>
    rw [Command.perform_conduct platform working,
      p.perform_phase_of_not_ready platform (by simpa using unready), c.phase_call]
  | skipped working ready cancelled =>
    rw [Command.perform_conduct platform working,
      p.perform_phase_of_cancelled platform (by simpa using ready) cancelled, c.phase_call]
  | unjoined scene working ready going unjoined =>
    rw [Command.perform_conduct platform working,
      p.perform_phase_of_going platform (by simpa using ready) going, c.phase_call, unjoined]
  | joined outcomes scene working ready going joined =>
    rw [Command.perform_conduct platform working,
      p.perform_phase_of_going platform (by simpa using ready) going, c.phase_call, joined]
  | again cleanup done =>
    rw [Command.eq_cleanup cleanup]
    exact p.perform_cleanup_of_cleanedUp platform done
  | uncleaned scene cleanup first unjoined =>
    rw [Command.eq_cleanup cleanup]
    refine (p.perform_cleanup platform first).trans ?_
    rw [unjoined]
  | cleaned outcomes scene cleanup first joined =>
    rw [Command.eq_cleanup cleanup]
    refine (p.perform_cleanup platform first).trans ?_
    rw [joined]

theorem exists_commanded (platform : Platform ε) (c : Command) (p : Progress ε) :
    ∃ answer q, Commanded platform.Makes c p answer q := by
  by_cases cleanup : c.phase = .cleanup
  · by_cases done : p.orchestrator.state = .cleanedUp
    · exact ⟨_, _, .again cleanup done⟩
    · rcases joins : platform.join (p.orchestrator.cleanupRequest p.scene.started) p.scene
        with ⟨_ | outcomes, scene⟩
      · exact ⟨_, _, .uncleaned scene cleanup done joins⟩
      · exact ⟨_, _, .cleaned outcomes scene cleanup done joins⟩
  · by_cases ready : c.phase.Ready p.orchestrator.state
    · cases going : p.isCancelled with
      | true => exact ⟨_, _, .skipped cleanup ready going⟩
      | false =>
        rcases joins : platform.join (p.requestOf (c.call p)) (p.sceneOf c.phase)
          with ⟨_ | outcomes, scene⟩
        · exact ⟨_, _, .unjoined scene cleanup ready going joins⟩
        · exact ⟨_, _, .joined outcomes scene cleanup ready going joins⟩
    · exact ⟨_, _, .refused cleanup ready⟩

/-- What a command does on `platform` is one of the cases of `Commanded`. -/
theorem commanded_conduct (platform : Platform ε) (c : Command) (p : Progress ε) :
    Commanded platform.Makes c p (p.perform (c.conduct platform)).1
      (p.perform (c.conduct platform)).2 := by
  obtain ⟨answer, q, commanded⟩ := exists_commanded platform c p
  rw [commanded.perform_eq]
  exact commanded

end Vigil
