import Mathlib.Algebra.Group.Nat.Defs
import Vigil.Proofs.Schedule.Simulation
import Vigil.Proofs.Schedule.Taking
import Vigil.Session

/-!
# Room for deadlines

A run panics only when an instant has no room for a deadline. How much room there is depends on the
host, whose monotonic clock reads `origin` at the start of the run. Up to a point in time no run
panics, whatever is asked of it and whenever it is cancelled, exactly if each of its limits still
has room at that point (`Schedule.never_panics_iff`). A valid configuration may have limits for
which no host has room.

The module introduces:

* `HasRoom origin now d`, when there is room for a span `d` after the instant `now`, and
  `Limits.HaveRoom`, when there is room for all limits of a run;
* `Roomy limits origin r`, the invariant of runs on a host;
* `Run.force`, a cleanup that is forced on a run under a schedule.
-/

namespace Vigil

/-- There is room for the instant a span `d` after `now`, on a host whose monotonic clock read
`origin` at the start. -/
def HasRoom (origin now : Nat) (d : Duration) : Prop := (later? origin now d).isSome = true

instance (origin now : Nat) (d : Duration) : Decidable (HasRoom origin now d) :=
  inferInstanceAs (Decidable (_ = true))

/-- There is room exactly if the sum of `origin`, the time since the start and `d`, all of them in
nanoseconds, stays below `instantRoom`. -/
theorem hasRoom_iff (origin now : Nat) (d : Duration) :
    HasRoom origin now d ↔ origin + (d.nanos + now * 1000000) < instantRoom := by
  unfold HasRoom later?
  split
  · next room => simp [room]
  · next full => simp [full]

/-- Where there is room for a span after `later`, there is room for it after earlier instants. -/
theorem HasRoom.earlier {origin now later : Nat} {d : Duration} (h : HasRoom origin later d)
    (le : now ≤ later) : HasRoom origin now d := by
  rw [hasRoom_iff] at h ⊢
  have past : now * 1000000 ≤ later * 1000000 := Nat.mul_le_mul_right 1000000 le
  exact Nat.lt_of_le_of_lt (Nat.add_le_add_left (Nat.add_le_add_left past d.nanos) _) h

/-- There is room for `secs` whole seconds exactly if the clock of the host then reads less than
`2 ^ 63` seconds. -/
theorem hasRoom_ofSecs_iff (origin now secs : Nat) :
    HasRoom origin now (.ofSecs secs) ↔
      origin + 1000000 * now + 1000000000 * secs < 1000000000 * 2 ^ 63 := by
  have room : instantRoom = 1000000000 * 2 ^ 63 := rfl
  rw [hasRoom_iff, room]
  dsimp only [Duration.ofSecs]
  omega

/-- There is room for every deadline that a run with these `limits` may need after `now`. -/
structure Limits.HaveRoom (limits : Limits) (origin now : Nat) : Prop where
  phase : HasRoom origin now limits.phaseTimeout
  cleanup : HasRoom origin now limits.cleanupTimeout
  grace : HasRoom origin now limits.cancelGrace

/-- There is room for the deadlines that the join of a `request` may need after `now`. No
cancellation reaches a cleanup, so its `grace` is never added to anything. -/
structure JoinRequest.HasRoom (request : JoinRequest) (origin now : Nat) : Prop where
  timeout : Vigil.HasRoom origin now request.limits.timeout
  grace : request.call.phase ≠ .cleanup → Vigil.HasRoom origin now request.limits.grace

namespace Join

/-- A join cannot begin exactly if there is no room for its `timeout`, or none for its `grace` where
the run is `cancelled` already. -/
theorem start?_eq_none_iff (origin : Nat) (limits : JoinLimits) (now : Nat) (cancelled : Bool)
    (calls : List Nat) :
    start? origin limits now cancelled calls = none ↔
      ¬HasRoom origin now limits.timeout ∨
        cancelled = true ∧ ¬HasRoom origin now limits.grace := by
  unfold start? HasRoom
  cases later? origin now limits.timeout with
  | none => simp
  | some deadline => cases cancelled <;> cases later? origin now limits.grace <;> simp

/-- A turn that cannot be taken sees a cancellation before the deadline and has no room for the end
of the grace period. -/
theorem turn_eq_none {origin now : Nat} {cancelled : Bool} {ending? : Nat → Option Ending}
    {j : Join} (h : j.turn origin now cancelled ending? = none) :
    cancelled = true ∧ j.cancelSeen = false ∧ now < j.deadline ∧
      ¬HasRoom origin now j.limits.grace := by
  unfold turn at h
  split at h
  · cases h
  · split at h
    · cases h
    · split at h
      · cases h
      · -- Before the deadline only a cancellation that is seen first needs a new one.
        next early =>
        split at h
        · next sees =>
          simp only [Bool.or_eq_true, decide_eq_true_eq, not_or, Nat.not_le] at early
          simp only [Bool.and_eq_true, Bool.not_eq_true'] at sees
          refine ⟨sees.1, sees.2, early.2, ?_⟩
          unfold seeCancel? at h
          unfold HasRoom
          cases room : later? origin now j.limits.grace with
          | none => simp
          | some deadline => simp [room] at h
        · cases h

theorem limits_turn {origin now : Nat} {cancelled : Bool} {ending? : Nat → Option Ending}
    {j j' : Join} {stop : Option Nat} (h : j.turn origin now cancelled ending? = some (j', stop)) :
    j'.limits = j.limits := by
  cases turned_of_turn h <;> rfl

end Join

namespace Schedule

namespace Stage

variable {request : JoinRequest} {round : Nat} {s : Stage} {j : Option Join}

theorem not_hasRoom_of_turn?_eq_none (limits : ∀ i ∈ j, i.limits = request.limits)
    (h : s.turn? request round j = none) : ¬request.HasRoom s.origin s.clock := by
  intro room
  -- Only the calls of a phase before cleanup are cancelled.
  have heeds (cancelled : (request.call.phase != .cleanup && s.controls.runCancelled) = true) :
      request.call.phase ≠ .cleanup := by
    intro cleanup
    simp [cleanup] at cancelled
  cases j with
  | none =>
    have starts := Option.map_eq_none_iff.1 h
    rcases (Join.start?_eq_none_iff ..).1 starts with full | ⟨cancelled, full⟩
    · exact full room.timeout
    · exact full (room.grace (heeds cancelled))
  | some i =>
    obtain ⟨cancelled, -, -, full⟩ := Join.turn_eq_none h
    rw [limits i rfl] at full
    exact full (room.grace (heeds cancelled))

theorem limits_turn? (limits : ∀ i ∈ j, i.limits = request.limits) {j' : Join} {stop : Option Nat}
    (h : s.turn? request round j = some (j', stop)) : j'.limits = request.limits := by
  cases j with
  | none =>
    obtain ⟨started, starts, same⟩ := Option.map_eq_some_iff.1 h
    cases same
    exact (fields_of_start starts).1
  | some i => exact (Join.limits_turn h).trans (limits i rfl)

/-- Where `Stage.await` panics there is no room for a deadline, by induction on the slots. -/
theorem await_panicked (slots : List Slot) (limits : ∀ i ∈ j, i.limits = request.limits)
    (panicked : (await request round slots j s).2.inner.standing = .panicked) :
    ¬request.HasRoom s.origin (await request round slots j s).2.clock := by
  induction slots generalizing j s with
  | nil => cases panicked
  | cons slot slots ih =>
    cases slot with
    | beside m =>
      have later := ih limits panicked
      rwa [(drift_move s m).origin] at later
    | run =>
      unfold await at panicked ⊢
      split at panicked
      · cases panicked
      · next waits =>
        split at panicked
        · next full =>
          -- A turn panics only where it computes a deadline that has no room.
          exact not_hasRoom_of_turn?_eq_none limits full
        · next j' stop turned =>
          have later := ih (fun i hi => ?_) panicked
          · rwa [(drift_abort s round stop).origin] at later
          · cases hi
            exact limits_turn? limits turned

theorem join_panicked (request : JoinRequest) (s : Stage)
    (panicked : (s.join request).2.inner.standing = .panicked) :
    ¬request.HasRoom s.origin (s.join request).2.clock :=
  await_panicked s.inner.slots (fun _ joining => absurd joining (Option.not_mem_none _)) panicked

/-- A join panics at its first turn if there is no room for a deadline then. -/
theorem join_of_full (request : JoinRequest) (s : Stage) (moves : List Move)
    (slots : s.inner.slots = moves.map .beside ++ [.run])
    (full : (moves.foldl move (s.spawn request)).turn? request s.inner.rounds.length none = none) :
    ∃ scene, platform.join request s = (none, scene) ∧ scene.inner.standing = .panicked ∧
      scene.clock = (moves.foldl move (s.spawn request)).clock := by
  have awaited : await request s.inner.rounds.length s.inner.slots none (s.spawn request) =
      (none, (moves.foldl move (s.spawn request)).stand .panicked []) := by
    rw [slots, await_beside, await_turn _ _ _ _ (Option.bind_none _), full]
  have joined : platform.join request s =
      (none, ((moves.foldl move (s.spawn request)).stand .panicked []).note
        s.inner.rounds.length none) := by
    change s.join request = _
    rw [join, awaited]
  exact ⟨_, joined, rfl, rfl⟩

end Stage

theorem not_haveRoom_later {limits : Limits} {origin now later : Nat}
    (full : ¬limits.HaveRoom origin now) (le : now ≤ later) : ¬limits.HaveRoom origin later :=
  fun room =>
  full ⟨room.phase.earlier le, room.cleanup.earlier le, room.grace.earlier le⟩

/-- A join of a run panics only when the `limits` that cover it have no room. -/
theorem not_haveRoom_of_join {limits : Limits} {request : JoinRequest} {s : Stage}
    (covers : ∀ origin now, limits.HaveRoom origin now → request.HasRoom origin now)
    (panicked : (s.join request).2.inner.standing = .panicked) :
    ¬limits.HaveRoom s.origin (s.join request).2.clock := fun room =>
  Stage.join_panicked request s panicked (covers _ _ room)

/-- The limits of a run cover the deadlines of its phases and of its cleanup. -/
theorem hasRoom_requestOf (p : Run) (call : Call) {origin now : Nat}
    (room : p.orchestrator.limits.HaveRoom origin now) : (p.requestOf call).HasRoom origin now :=
  ⟨room.phase, fun _ => room.grace⟩

theorem hasRoom_cleanupRequest (o : Orchestrator) (started : Bool) {origin now : Nat}
    (room : o.limits.HaveRoom origin now) : (o.cleanupRequest started).HasRoom origin now :=
  ⟨room.cleanup, fun working => absurd rfl working⟩

/-- A run with some `limits` on a host whose clock read `origin` at the start, which has not
panicked while there was room for every deadline. -/
structure Roomy (limits : Limits) (origin : Nat) (r : Run) : Prop where
  limits_eq : r.orchestrator.limits = limits
  origin_eq : r.scene.origin = origin
  panicked : r.world.standing = .panicked → ¬limits.HaveRoom origin r.scene.clock

namespace Roomy

variable {limits : Limits} {origin : Nat} {p q : Run}

theorem new (runId : String) (registry : Registry) (limits : Limits) (origin : Nat) :
    Roomy limits origin (Run.new runId registry limits origin) := ⟨rfl, rfl, nofun⟩

theorem later (h : Roomy limits origin p) (same : q.orchestrator.limits = p.orchestrator.limits)
    (host : q.scene.origin = p.scene.origin) (standing : q.world.standing = p.world.standing)
    (clock : p.scene.clock ≤ q.scene.clock) : Roomy limits origin q where
  limits_eq := same.trans h.limits_eq
  origin_eq := host.trans h.origin_eq
  panicked panicked := not_haveRoom_later (h.panicked (standing.symm.trans panicked)) clock

theorem idles (h : Roomy limits origin p) (idles : Idles p q) : Roomy limits origin q :=
  h.later (by rw [idles.orchestrator]) idles.drift.origin idles.standing idles.clock

theorem joined {o : Orchestrator} (same : o.limits = limits) {request : JoinRequest}
    {s scene : Stage} (host : s.origin = origin)
    (covers : ∀ origin now, limits.HaveRoom origin now → request.HasRoom origin now)
    {outcomes : Option (List CallOutcome)} (joins : platform.join request s = (outcomes, scene)) :
    Roomy limits origin { orchestrator := o, scene } where
  limits_eq := same
  origin_eq := by
    have scene_eq : (s.join request).2 = scene := congrArg Prod.snd joins
    rw [← scene_eq, (Stage.joined_join request s).origin]
    exact host
  panicked panicked := by
    have scene_eq : (s.join request).2 = scene := congrArg Prod.snd joins
    rw [← scene_eq, ← host]
    refine not_haveRoom_of_join covers ?_
    rw [scene_eq]
    exact panicked

theorem settleUnder (h : Roomy limits origin p) (course : Course) (c : Command)
    (settlement : Option Settlement) : Roomy limits origin (settleUnder course c settlement p) := by
  obtain ⟨moves, taken⟩ := Stage.take_eq course.takes p.scene
  have host := (drift_moves moves p.scene).origin
  have clock := Stage.clock_moves moves p.scene
  cases c with
  | collect =>
    simp only [Schedule.settleUnder, taken]
    exact h.later rfl host (Stage.standing_moves moves p.scene) clock
  | construct =>
    simp only [Schedule.settleUnder, taken]
    let s := (moves.foldl Stage.move p.scene).drained
    refine h.later rfl ?_ ?_ ?_
    · exact (drift_moves course.closes s).origin.trans host
    · exact (Stage.standing_moves course.closes s).trans (Stage.standing_moves moves p.scene)
    · exact Nat.le_trans clock (Stage.clock_moves course.closes s)
  | _ => exact h

/-- A command panics only when there is no room for a deadline: the step lemma of `Roomy`. -/
theorem asks (h : Roomy limits origin p) (c : Command) (course : Course) :
    Roomy limits origin (p.perform (conductUnder course c)).2 := by
  -- The limits of each request are those that the run was made with.
  have covers (call : Call) (origin now : Nat) (room : limits.HaveRoom origin now) :
      (p.requestOf call).HasRoom origin now := by
    rw [← h.limits_eq] at room
    exact hasRoom_requestOf p call room
  by_cases working : c.phase = .cleanup
  · rw [Command.eq_cleanup working]
    change Roomy limits origin (p.perform (Conduct.cleanup platform)).2
    have covers (origin now : Nat) (room : limits.HaveRoom origin now) :
        (p.orchestrator.cleanupRequest p.scene.started).HasRoom origin now := by
      rw [← h.limits_eq] at room
      exact hasRoom_cleanupRequest p.orchestrator p.scene.started room
    rcases performed : p.perform (Conduct.cleanup platform) with ⟨answer, q⟩
    cases Progress.cleanupResult performed with
    | again => exact h
    | unjoined scene _ joins => exact joined h.limits_eq h.origin_eq covers joins
    | joined outcomes scene _ joins =>
      have roomy := joined h.limits_eq h.origin_eq covers joins
      exact roomy.later rfl rfl rfl (Nat.le_refl _)
  · rw [perform_conductUnder course working]
    have host : (p.sceneOf (c.call p).phase).origin = origin :=
      (p.origin_sceneOf (c.call p).phase).trans h.origin_eq
    rcases performed : p.perform (Conduct.phase platform (c.call p)) with ⟨answer, q⟩
    cases Progress.phaseResult performed with
    | refused => exact h
    | skipped =>
      have begun : Roomy limits origin (p.begun (c.call p).phase) :=
        h.later rfl rfl rfl (Nat.le_refl _)
      exact begun.settleUnder course c none
    | unjoined scene _ _ joins =>
      have same : (p.begun (c.call p).phase).orchestrator.limits = limits := h.limits_eq
      exact joined same host (covers _) joins
    | joined outcomes scene _ _ joins =>
      have roomy := joined h.limits_eq host (covers _) joins
      have settled : Roomy limits origin (p.settledWith (c.call p) outcomes scene) :=
        roomy.later rfl rfl rfl (Nat.le_refl _)
      exact settled.settleUnder course c _

end Roomy

/-- Whatever happens to a run, it panics only when there is no room for a deadline. -/
theorem roomy_after (runId : String) (registry : Registry) (limits : Limits) (origin : Nat)
    (steps : List Step) :
    Roomy limits origin ((Run.new runId registry limits origin).afterSteps steps) :=
  Run.afterSteps_invariant (.new runId registry limits origin) Roomy.idles
    (fun c course h => h.asks c course) steps

/-- A cleanup that is forced on the run `r` while `slots` is the schedule. -/
def Run.force (r : Run) (slots : List Slot) : Run :=
  ((r.updateScene fun s => s.stand .free slots).perform (Conduct.forceCleanup platform)).2

theorem Roomy.force {limits : Limits} {origin : Nat} {r : Run} (h : Roomy limits origin r)
    (slots : List Slot) : Roomy limits origin (r.force slots) := by
  let p : Run := r.updateScene fun s => s.stand .free slots
  have covers (origin now : Nat) (room : limits.HaveRoom origin now) :
      (p.orchestrator.cleanupRequest p.scene.started).HasRoom origin now := by
    rw [← h.limits_eq] at room
    exact hasRoom_cleanupRequest p.orchestrator p.scene.started room
  have host : p.scene.origin = origin := h.origin_eq
  change Roomy limits origin (p.perform (Conduct.forceCleanup platform)).2
  rw [p.perform_forceCleanup platform]
  rcases joins : platform.join (p.orchestrator.cleanupRequest p.scene.started) p.scene
    with ⟨_ | outcomes, scene⟩
  · have halted : Roomy limits origin { p with scene } := joined h.limits_eq host covers joins
    exact halted
  · have roomy : Roomy limits origin { p with scene } := joined h.limits_eq host covers joins
    exact roomy.later rfl rfl rfl (Nat.le_refl _)

/-! ## Runs that panic -/

/-- A run on a host whose clock read `origin` at the start, which has waited for `millis` before
anything is asked of it. -/
def waited (registry : Registry) (limits : Limits) (origin millis : Nat) : Run :=
  (Run.new "" registry limits origin).step (.beside (.elapse millis))

/-- Some run with these `limits` on such a host panics at the instant `millis` at the latest. -/
def Panics (registry : Registry) (limits : Limits) (origin millis : Nat) : Prop :=
  ∃ runId steps, let r := (Run.new runId registry limits origin).afterSteps steps
    r.scene.clock ≤ millis ∧ r.world.standing = .panicked

/-- A command that panics when it is asked of a run that has `waited` makes some run panic. -/
theorem panics_of_waited {registry : Registry} {limits : Limits} {origin millis : Nat} (c : Command)
    (course : Course) {scene : Stage}
    (asked : ((waited registry limits origin millis).askUnder c course).2.scene = scene)
    (early : scene.clock ≤ millis) (panicked : scene.inner.standing = .panicked) :
    Panics registry limits origin millis := by
  have same : (Run.new "" registry limits origin).afterSteps
      [.beside (.elapse millis), .command c course] =
        ((waited registry limits origin millis).askUnder c course).2 := by
    have free : (waited registry limits origin millis).isFree = true := rfl
    rw [← Run.step_command free]
    rfl
  refine ⟨"", [.beside (.elapse millis), .command c course], ?_⟩
  rw [same]
  dsimp only [Run.world]
  rw [asked]
  exact ⟨early, panicked⟩

theorem Stage.turn?_none_eq_none_iff (request : JoinRequest) (round : Nat) (s : Stage) :
    s.turn? request round none = none ↔
      ¬HasRoom s.origin s.clock request.limits.timeout ∨
        (request.call.phase != .cleanup && s.controls.runCancelled) = true ∧
          ¬HasRoom s.origin s.clock request.limits.grace :=
  Option.map_eq_none_iff.trans (Join.start?_eq_none_iff ..)

theorem scene_of_unjoined {p : Run} {c : Command} (course : Course) (working : c.phase ≠ .cleanup)
    (ready : (c.call p).phase.Ready p.orchestrator.state) (going : p.isCancelled = false)
    {scene : Stage}
    (joins : platform.join (p.requestOf (c.call p)) (p.sceneOf (c.call p).phase) = (none, scene)) :
    (p.perform (conductUnder course c)).2.scene = scene := by
  rw [perform_conductUnder course working, p.perform_phase_of_going platform ready going, joins]

theorem scene_of_uncleaned {p : Run} (course : Course) (first : p.orchestrator.state ≠ .cleanedUp)
    {scene : Stage}
    (joins :
      platform.join (p.orchestrator.cleanupRequest p.scene.started) p.scene = (none, scene)) :
    (p.perform (conductUnder course .cleanup)).2.scene = scene := by
  change (p.perform (Conduct.cleanup platform)).2.scene = scene
  rw [p.perform_cleanup platform first, joins]

section Panics

variable {registry : Registry} {limits : Limits} {origin millis : Nat}

/-- Setup panics if its first turn finds no room, whatever has gone on beside it before. -/
theorem panics_at_setup (moves : List Move)
    (still : ∀ s, (moves.foldl Stage.move s).clock = s.clock)
    (full : ∀ (request : JoinRequest) (round : Nat) (s : Stage), s.origin = origin →
      s.clock = millis → request.limits = ⟨limits.phaseTimeout, limits.cancelGrace⟩ →
      request.call.phase = .setup → (moves.foldl Stage.move s).turn? request round none = none) :
    Panics registry limits origin millis := by
  let course : Course := { joins := moves.map .beside ++ [.run] }
  let p : Run :=
    (waited registry limits origin millis).updateScene fun s => s.stand .free course.joins
  let request := p.requestOf (.setup default)
  let s : Stage := p.sceneOf .setup
  have clock : (s.spawn request).clock = millis := Nat.zero_add millis
  obtain ⟨scene, joins, panicked, ends⟩ :=
    Stage.join_of_full request s moves rfl (full request _ _ rfl clock rfl rfl)
  have ready : Phase.setup.Ready State.pending := by decide
  have left : (p.perform (conductUnder course (.setup default))).2.scene = scene :=
    scene_of_unjoined (p := p) (c := .setup default) course (by decide) ready rfl joins
  refine panics_of_waited (.setup default) course left (Nat.le_of_eq ?_) panicked
  rw [ends, still, clock]

theorem panics_of_phaseTimeout (full : ¬HasRoom origin millis limits.phaseTimeout) :
    Panics registry limits origin millis := by
  refine panics_at_setup [] (fun _ => rfl) ?_
  intro request round s host clock same setup
  rw [List.foldl_nil, Stage.turn?_none_eq_none_iff, host, clock, same]
  exact .inl full

/-- Without room for the grace period some run panics: one that is cancelled between the beginning
of setup and its first turn. -/
theorem panics_of_cancelGrace (full : ¬HasRoom origin millis limits.cancelGrace) :
    Panics registry limits origin millis := by
  refine panics_at_setup [.cancelRun] (fun _ => rfl) ?_
  intro request round s host clock same setup
  rw [List.foldl_cons, List.foldl_nil, Stage.turn?_none_eq_none_iff, same, setup]
  exact .inr ⟨rfl, by rw [← host, ← clock] at full; exact full⟩

/-- Without room for the deadline of a cleanup some run panics, even if there is nobody to call. -/
theorem panics_of_cleanupTimeout (full : ¬HasRoom origin millis limits.cleanupTimeout) :
    Panics registry limits origin millis := by
  let course : Course := { joins := [.run] }
  let p : Run :=
    (waited registry limits origin millis).updateScene fun s => s.stand .free course.joins
  let request := p.orchestrator.cleanupRequest p.scene.started
  have clock : (Stage.spawn request p.scene).clock = millis := Nat.zero_add millis
  have stops : (Stage.spawn request p.scene).turn? request p.world.rounds.length none = none := by
    rw [Stage.turn?_none_eq_none_iff, clock]
    exact .inl full
  obtain ⟨scene, joins, panicked, ends⟩ := Stage.join_of_full request p.scene [] rfl stops
  have left := scene_of_uncleaned (p := p) course nofun joins
  exact panics_of_waited .cleanup course left (Nat.le_of_eq (ends.trans clock)) panicked

end Panics

/-- On a host whose monotonic clock reads `origin` nanoseconds at the start, no run of a
configuration panics within `millis` milliseconds, whatever is asked of it, whatever goes on beside
it and whenever it is cancelled, and no cleanup that is forced on it does, exactly if each of its
limits, in seconds, ends while that clock still reads less than `2 ^ 63` seconds. -/
theorem never_panics_iff (c : Config) (registry : Registry) (origin millis : Nat) :
    (∀ (runId : String) (steps : List Step),
      let r := (Run.new runId registry c.lifecycle.limits origin).afterSteps steps
      (r.scene.clock ≤ millis → r.world.standing ≠ .panicked) ∧
        ∀ slots, (r.force slots).scene.clock ≤ millis →
          (r.force slots).world.standing ≠ .panicked) ↔
      ∀ secs ∈ [c.lifecycle.phaseTimeoutSecs, c.lifecycle.cleanupTimeoutSecs,
          c.lifecycle.cancelGraceSecs],
        origin + 1000000 * millis + 1000000000 * secs < 1000000000 * 2 ^ 63 := by
  simp only [List.forall_mem_cons, List.not_mem_nil, false_imp_iff, forall_const, and_true,
    ← hasRoom_ofSecs_iff]
  constructor
  · intro safe
    -- If one of the limits had no room at that time, some run would panic then.
    have room {d : Duration} (panics : ¬HasRoom origin millis d →
        Panics registry c.lifecycle.limits origin millis) : HasRoom origin millis d := by
      by_contra full
      obtain ⟨runId, steps, early, panicked⟩ := panics full
      exact (safe runId steps).1 early panicked
    have phase : HasRoom origin millis c.lifecycle.limits.phaseTimeout :=
      room panics_of_phaseTimeout
    have cleanup : HasRoom origin millis c.lifecycle.limits.cleanupTimeout :=
      room panics_of_cleanupTimeout
    have grace : HasRoom origin millis c.lifecycle.limits.cancelGrace :=
      room panics_of_cancelGrace
    exact ⟨phase, cleanup, grace⟩
  · intro ⟨phase, cleanup, grace⟩ runId steps
    have room : c.lifecycle.limits.HaveRoom origin millis := ⟨phase, cleanup, grace⟩
    -- What has room at the end has had room all the time.
    have roomy := roomy_after runId registry c.lifecycle.limits origin steps
    refine ⟨fun early panicked => ?_, fun slots early panicked => ?_⟩
    · exact not_haveRoom_later (roomy.panicked panicked) early room
    · exact not_haveRoom_later ((roomy.force slots).panicked panicked) early room

/-- The default settings, but for the greatest limit of a phase that 64 bits can hold. -/
def boundlessConfig : Config where
  lifecycle := { phaseTimeoutSecs := 2 ^ 64 - 1 }

/-- `boundlessConfig` is valid, and setup panics at once even on a host whose clock reads zero at
the start. -/
theorem boundless_config_panics :
    boundlessConfig.validate = .ok () ∧
      ((Run.new "" (builtinRegistry boundlessConfig.observers)
        boundlessConfig.lifecycle.limits 0).afterSteps
          [.command (.setup default) { joins := [.run] }]).world.standing = .panicked := by
  decide +kernel

end Schedule
end Vigil
