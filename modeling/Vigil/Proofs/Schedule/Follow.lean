import Vigil.Proofs.Schedule.Simulation

/-!
# Following a join by a schedule

A join that is polled now and then, with whatever endings it sees, can be followed by a schedule:
a call begins and ends just before the turn that takes its end over, a call that is given up stops
just before the join returns, and nothing else has to happen to the calls.

The module introduces:

* `Join.shift`, a join whose calls are counted from another number;
* `Follows`, when a scene under a schedule is at the same point as a join.
-/

namespace Vigil

namespace Join

/-- The join `j`, with its calls counted from `first` on. -/
def shift (first : Nat) (j : Join) : Join :=
  { j with waiting := j.waiting.map (first + ·), aborted := j.aborted.map (first + ·) }

variable (first origin now : Nat) (cancelled : Bool) (ending? : Nat → Option Ending)

theorem start?_shift (limits : JoinLimits) (calls : List Nat) :
    start? origin limits now cancelled (calls.map (first + ·)) =
      (start? origin limits now cancelled calls).map (shift first) := by
  unfold start?
  cases later? origin now limits.timeout with
  | none => rfl
  | some deadline =>
    cases cancelled with
    | false => rfl
    | true => cases later? origin now limits.grace <;> rfl

theorem turn_shift (j : Join) :
    (j.shift first).turn origin now cancelled ending? =
      (j.turn origin now cancelled fun i => ending? (first + i)).map fun r =>
        (r.1.shift first, r.2.map (first + ·)) := by
  obtain ⟨limits, deadline, cancelSeen, expired, settled, waiting, aborted⟩ := j
  cases waiting with
  | nil => rfl
  | cons call rest =>
    simp only [turn, shift, List.map_cons]
    cases ending? (first + call) with
    | some e => rfl
    | none =>
      dsimp only
      split
      · simp [giveUp, stopped]
      · split
        · simp only [seeCancel?]
          cases later? origin now limits.grace <;> rfl
        · rfl

theorem turns_shift (n : Nat) (j : Join) :
    (j.shift first).turns origin now cancelled ending? n =
      (j.turns origin now cancelled (fun i => ending? (first + i)) n).map fun r =>
        (r.1.shift first, r.2.map (first + ·)) := by
  induction n generalizing j with
  | zero => rfl
  | succ n ih =>
    simp only [turns, turn_shift]
    cases j.turn origin now cancelled (fun i => ending? (first + i)) with
    | none => rfl
    | some r =>
      obtain ⟨j', stop⟩ := r
      simp only [Option.map_some, Option.bind_eq_bind, Option.bind_some, ih]
      cases j'.turns origin now cancelled (fun i => ending? (first + i)) n with
      | none => rfl
      | some r => cases stop <;> simp

theorem poll_shift (j : Join) :
    (j.shift first).poll origin now cancelled ending? =
      (j.poll origin now cancelled fun i => ending? (first + i)).map fun r =>
        (r.1.shift first, r.2.map (first + ·)) := by
  rw [poll, poll, turns_shift]
  simp [shift]

end Join

/-- A turn looks at no call but the first one that is awaited, so two hosts that agree on that call
take the same turn. -/
theorem Join.turn_congr {origin now : Nat} {cancelled : Bool}
    {ending? ending?' : Nat → Option Ending}
    {j : Join} (same : ∀ call rest, j.waiting = call :: rest → ending? call = ending?' call) :
    j.turn origin now cancelled ending? = j.turn origin now cancelled ending?' := by
  unfold turn
  cases waiting : j.waiting with
  | nil => rfl
  | cons call rest =>
    dsimp only
    rw [same call rest waiting]

namespace Schedule

theorem Agree.trans {ε : Type} {s : Scene ε} {t t' : Stage} (first : Agree s t)
    (second : Agree t t') : Agree s t' where
  origin := second.origin.trans first.origin
  clock := second.clock.trans first.clock
  controls := second.controls.trans first.controls
  started := second.started.trans first.started
  recorder := second.recorder.trans first.recorder

theorem Agree.refl (t : Stage) : Agree t t := ⟨rfl, rfl, rfl, rfl, rfl⟩

/-- Some slots lead a join of `round` from one point to another: whatever schedule comes after them,
it goes on from there. -/
def Leads (request : JoinRequest) (round : Nat) (j : Join) (t : Stage) (j' : Join) (t' : Stage) :
    Prop :=
  ∃ slots, ∀ rest, Stage.await request round (slots ++ rest) (some j) t =
    Stage.await request round rest (some j') t'

namespace Leads

variable {request : JoinRequest} {round : Nat} {j j' j'' : Join} {t t' t'' : Stage}

theorem refl : Leads request round j t j t := ⟨[], fun _ => rfl⟩

theorem trans (first : Leads request round j t j' t') (second : Leads request round j' t' j'' t'') :
    Leads request round j t j'' t'' := by
  obtain ⟨slots, same⟩ := first
  obtain ⟨slots', same'⟩ := second
  exact ⟨slots ++ slots', fun rest => by rw [List.append_assoc, same, same']⟩

theorem beside (moves : List Move) : Leads request round j t j (moves.foldl Stage.move t) :=
  ⟨moves.map .beside, fun rest => Stage.await_beside request round moves rest (some j) t⟩

theorem turn {stop : Option Nat} (waits : j.isDone = false)
    (turned : t.turn? request round (some j) = some (j', stop)) :
    Leads request round j t j' (t.abort round stop) := by
  refine ⟨[.run], fun rest => ?_⟩
  have pending : (some j).bind (Join.outcomes? (t.inner.isOver round)) = none := by
    simp [Join.outcomes?, waits]
  rw [List.singleton_append, Stage.await_turn request round rest t pending, turned]

end Leads

/-- By some slots a join of `round` comes to `result`: the outcomes, and if there are any, a scene
that is the same for the orchestrator. -/
def Attains {ε : Type} (request : JoinRequest) (round : Nat) (j : Option Join) (t : Stage)
    (result : Option (List CallOutcome) × Scene ε) : Prop :=
  ∃ slots t', Stage.await request round slots j t = (result.1, t') ∧
    (result.1.isSome = true → Agree result.2 t')

namespace Attains

variable {ε : Type} {request : JoinRequest} {round : Nat} {j j' : Join} {t t' : Stage}

theorem nothing (s : Scene ε) : Attains request round (some j) t (none, s) :=
  ⟨[], t.stand .joining [], rfl, nofun⟩

theorem of_leads {result : Option (List CallOutcome) × Scene ε}
    (leads : Leads request round j t j' t') (attains : Attains request round (some j') t' result) :
    Attains request round (some j) t result := by
  obtain ⟨slots, same⟩ := leads
  obtain ⟨slots', t'', awaited, agree⟩ := attains
  exact ⟨slots ++ slots', t'', (same slots').trans awaited, agree⟩

end Attains

/-- The scene `t` is at the same point as the join `j` of `size` calls: what it awaits has not
begun, and what it gave up was asked to stop. Such a scene can be led through the turns of `j`. -/
structure Follows (size round : Nat) (j : Join) (t : Stage) : Prop where
  /-- The calls without an outcome are awaited in their order. -/
  waiting : j.waiting = List.range' j.settled.length (size - j.settled.length)
  fresh : ∀ i, j.settled.length ≤ i → i < size → t.inner.task? round i = some {}
  /-- The calls that were given up were asked to stop. -/
  aborted : ∀ i ∈ j.aborted, ∃ u, t.inner.task? round i = some u ∧ u.aborted = true

namespace Follows

variable {size round : Nat} {j j' : Join} {t t' : Stage}

theorem of_rounds_eq (h : Follows size round j t) (same : t'.inner.rounds = t.inner.rounds) :
    Follows size round j t' := by
  have task (i : Nat) : t'.inner.task? round i = t.inner.task? round i := by
    simp only [World.task?, same]
  exact
    { waiting := h.waiting
      fresh := fun i start lt => by rw [task]; exact h.fresh i start lt
      aborted := fun i hi => by rw [task]; exact h.aborted i hi }

/-- The join `j` begins with all its calls awaited, and a scene whose tasks are all fresh follows
it. -/
theorem start {limits : JoinLimits} {origin now : Nat} {cancelled : Bool}
    (started : Join.start? origin limits now cancelled (List.range size) = some j)
    (fresh : ∀ i < size, t.inner.task? round i = some {}) : Follows size round j t := by
  obtain ⟨-, settled, waiting, aborted⟩ := fields_of_start started
  exact
    { waiting := by rw [waiting, settled, List.range_eq_range']; rfl
      fresh := fun i _ lt => fresh i lt
      aborted := fun i hi => by rw [aborted] at hi; cases hi }

theorem fresh_head (h : Follows size round j t) {call : Nat} {rest : List Nat}
    (hw : j.waiting = call :: rest) : t.inner.task? round call = some {} := by
  obtain ⟨rfl, lt, -⟩ := range'_eq_cons (h.waiting.symm.trans hw)
  exact h.fresh _ (Nat.le_refl _) lt

theorem next (h : Follows size round j t) {call : Nat} {rest : List Nat}
    (hw : j.waiting = call :: rest) {outcome : CallOutcome}
    (settled : j'.settled = j.settled ++ [outcome]) (waiting : j'.waiting = rest)
    (others : ∀ i, i ≠ call → t'.inner.task? round i = t.inner.task? round i)
    (aborted : ∀ i ∈ j'.aborted, ∃ u, t'.inner.task? round i = some u ∧ u.aborted = true) :
    Follows size round j' t' := by
  obtain ⟨rfl, -, hrest⟩ := range'_eq_cons (h.waiting.symm.trans hw)
  have length : j'.settled.length = j.settled.length + 1 := by simp [settled]
  exact
    { waiting := by rw [waiting, length, hrest]
      fresh := fun i start lt => by
        rw [length] at start
        rw [others i (Nat.ne_of_gt start)]
        exact h.fresh i (Nat.le_of_succ_le start) lt
      aborted := aborted }

theorem aborted_of_keeps (h : Follows size round j t) (keeps : World.Keeps t.inner t'.inner)
    {i : Nat} (hi : i ∈ j.aborted) :
    ∃ u, t'.inner.task? round i = some u ∧ u.aborted = true := by
  obtain ⟨u, hu, aborted⟩ := h.aborted i hi
  obtain ⟨v, hv, later⟩ := keeps round i u hu
  exact ⟨v, hv, later.aborted aborted⟩

end Follows

section Turn

variable {request : JoinRequest} {round : Nat} {j j' : Join} {t : Stage} {cancelled : Bool}
  {ending? : Nat → Option Ending} {stop : Option Nat}

/-- A turn that takes the end `e` of a call over can be followed: the call begins and ends on the
scene, then the join takes its turn. -/
theorem Follows.takeOver (h : Follows request.targets.length round j t) {call : Nat}
    {rest : List Nat} (hw : j.waiting = call :: rest) (e : Ending) :
    ∃ t', Leads request round j t (j.takeOver e rest) t' ∧
      Follows request.targets.length round (j.takeOver e rest) t' ∧ Agree t t' := by
  -- The call begins and ends now.
  let t' := [Move.enter round call, .finish round call e].foldl Stage.move t
  have task : ∀ i, t'.inner.task? round i =
      if i = call then some { status := .ended e } else t.inner.task? round i :=
    t.task?_enter_finish e (h.fresh_head hw)
  have turned : t'.turn? request round (some j) = some (j.takeOver e rest, none) := by
    simp [Stage.turn?, Join.turn, hw, World.ending?, task, Task.ending?]
  refine ⟨t', (Leads.beside _).trans (Leads.turn (by simp [Join.isDone, hw]) turned), ?_,
    ⟨rfl, rfl, rfl, rfl, rfl⟩⟩
  refine h.next hw rfl rfl (fun i hi => by rw [task, if_neg hi]) fun i hi => ?_
  exact h.aborted_of_keeps (drift_moves _ t).world.keeps hi

/-- A turn by which a call is given up can be followed by the same turn on the scene. -/
theorem Follows.giveUp (h : Follows request.targets.length round j t) {call : Nat}
    {rest : List Nat} (hw : j.waiting = call :: rest)
    (turned : t.turn? request round (some j) = some (j.giveUp call rest, some call)) :
    ∃ t', Leads request round j t (j.giveUp call rest) t' ∧
      Follows request.targets.length round (j.giveUp call rest) t' ∧ Agree t t' := by
  have task (i : Nat) : (t.abort round (some call)).inner.task? round i =
      (t.inner.task? round i).map fun u => if round = round ∧ call = i then u.abort else u :=
    World.task?_change ..
  refine ⟨_, Leads.turn (by simp [Join.isDone, hw]) turned, ?_, ⟨rfl, rfl, rfl, rfl, rfl⟩⟩
  refine h.next hw rfl rfl (fun i hi => ?_) fun i hi => ?_
  · rw [task]
    cases t.inner.task? round i with
    | none => rfl
    | some u => simp [Ne.symm hi]
  · rcases List.mem_append.1 hi with hi | hi
    · exact h.aborted_of_keeps (drift_abort t round (some call)).world.keeps hi
    · obtain rfl := List.mem_singleton.1 hi
      exact ⟨{ aborted := true },
        by rw [task, h.fresh_head hw]; simp [Task.abort, Task.isOver], rfl⟩

/-- As long as the first call that is awaited has not ended, a turn is the same under the schedule,
where it has not begun. -/
theorem Follows.turn?_eq (h : Follows request.targets.length round j t)
    (heeds : cancelled = (request.call.phase != .cleanup && t.controls.runCancelled))
    {call : Nat} {rest : List Nat} (hw : j.waiting = call :: rest)
    (unended : ending? call = none) :
    t.turn? request round (some j) = j.turn t.origin t.clock cancelled ending? := by
  rw [heeds]
  refine Join.turn_congr fun call' rest' hw' => ?_
  obtain ⟨rfl, -⟩ := List.cons.inj (hw.symm.trans hw')
  rw [unended, World.ending?, h.fresh_head hw]
  rfl

/-- A turn of a join can be followed, whichever of the cases of `Join.Turned` it is. -/
theorem Follows.turn (h : Follows request.targets.length round j t)
    (heeds : cancelled = (request.call.phase != .cleanup && t.controls.runCancelled))
    (turned : j.turn t.origin t.clock cancelled ending? = some (j', stop)) :
    ∃ t', Leads request round j t j' t' ∧ Follows request.targets.length round j' t' ∧
      Agree t t' := by
  cases Join.turned_of_turn turned with
  | done => exact ⟨t, .refl, h, .refl t⟩
  | @ended _ _ e waiting => exact h.takeOver waiting e
  | late waiting unended => exact h.giveUp waiting ((h.turn?_eq heeds waiting unended).trans turned)
  | seen waiting unended =>
    have turned' := (h.turn?_eq heeds waiting unended).trans turned
    exact ⟨t, Leads.turn (by simp [Join.isDone, waiting]) turned',
      ⟨h.waiting, h.fresh, h.aborted⟩, .refl t⟩
  | idle => exact ⟨t, .refl, h, .refl t⟩

theorem Follows.turn_overflow (h : Follows request.targets.length round j t)
    (heeds : cancelled = (request.call.phase != .cleanup && t.controls.runCancelled))
    (turned : j.turn t.origin t.clock cancelled ending? = none) {ε : Type} (s : Scene ε) :
    Attains request round (some j) t (none, s) := by
  cases hw : j.waiting with
  | nil => simp [Join.turn, hw] at turned
  | cons call rest =>
    have ends : ending? call = none := by
      cases ends : ending? call with
      | none => rfl
      | some e => simp [Join.turn, hw, ends] at turned
    have same := h.turn?_eq heeds hw ends
    have pending : (some j).bind (Join.outcomes? (t.inner.isOver round)) = none := by
      simp [Join.outcomes?, Join.isDone, hw]
    refine ⟨[.run], t.stand .panicked [], ?_,
      fun returned => absurd returned Bool.false_ne_true⟩
    rw [Stage.await_turn request round [] t pending, same, turned]

theorem Follows.turns {n : Nat} {stops : List Nat}
    (h : Follows request.targets.length round j t)
    (heeds : cancelled = (request.call.phase != .cleanup && t.controls.runCancelled))
    (turned : j.turns t.origin t.clock cancelled ending? n = some (j', stops)) :
    ∃ t', Leads request round j t j' t' ∧ Follows request.targets.length round j' t' ∧
      Agree t t' := by
  induction n generalizing j t stops with
  | zero =>
    cases turned
    exact ⟨t, .refl, h, .refl t⟩
  | succ n ih =>
    simp only [Join.turns, Option.bind_eq_bind, Option.bind_eq_some_iff] at turned
    obtain ⟨⟨j₁, stop⟩, first, ⟨j₂, stops'⟩, rest, last⟩ := turned
    cases last
    obtain ⟨t₁, leads, h₁, agree⟩ := h.turn heeds first
    rw [← agree.controls] at heeds
    rw [← agree.origin, ← agree.clock] at rest
    obtain ⟨t₂, leads', h₂, agree'⟩ := ih h₁ heeds rest
    exact ⟨t₂, leads.trans leads', h₂, agree.trans agree'⟩

theorem Follows.turns_overflow {n : Nat} (h : Follows request.targets.length round j t)
    (heeds : cancelled = (request.call.phase != .cleanup && t.controls.runCancelled))
    (turned : j.turns t.origin t.clock cancelled ending? n = none) {ε : Type} (s : Scene ε) :
    Attains request round (some j) t (none, s) := by
  induction n generalizing j t with
  | zero => cases turned
  | succ n ih =>
    cases first : j.turn t.origin t.clock cancelled ending? with
    | none => exact h.turn_overflow heeds first s
    | some r =>
      obtain ⟨j₁, stop⟩ := r
      obtain ⟨t₁, leads, h₁, agree⟩ := h.turn heeds first
      rw [← agree.controls] at heeds
      cases rest : j₁.turns t.origin t.clock cancelled ending? n with
      | some r => simp [Join.turns, first, rest] at turned
      | none =>
        rw [← agree.origin, ← agree.clock] at rest
        exact (ih h₁ heeds rest).of_leads leads

end Turn

theorem Task.isOver_stop {u : Task} (asked : u.isOver = true ∨ u.aborted = true) :
    u.stop.isOver = true := by
  unfold stop
  split
  · next done => exact done
  · next live =>
    rw [if_pos (asked.resolve_left live)]
    rfl

section Stops

variable {round : Nat} {calls : List Nat} {t : Stage}

theorem agree_stops : Agree t ((calls.map (Move.stop round)).foldl Stage.move t) := by
  induction calls generalizing t with
  | nil => exact .refl t
  | cons i calls ih =>
    have first : Agree t (t.move (.stop round i)) := ⟨rfl, rfl, rfl, rfl, rfl⟩
    exact first.trans ih

/-- The calls of a round that are over or were asked to stop can all stop now. -/
theorem isOver_stops
    (asked : ∀ i ∈ calls, ∃ u, t.inner.task? round i = some u ∧
      (u.isOver = true ∨ u.aborted = true)) :
    ∀ i ∈ calls,
      ((calls.map (Move.stop round)).foldl Stage.move t).inner.isOver round i = true := by
  induction calls generalizing t with
  | nil => exact nofun
  | cons i calls ih =>
    let t' := t.move (.stop round i)
    have keeps : World.Keeps t.inner t'.inner := (drift_moves [.stop round i] t).world.keeps
    intro k hk
    rcases List.mem_cons.1 hk with rfl | hk
    · -- It stops first, and stays over while the others stop.
      obtain ⟨u, hu, asked⟩ := asked k (List.mem_cons_self ..)
      have stopped : t'.inner.isOver round k = true := by
        have task : t'.inner.task? round k = some u.stop := by
          simp [t', Stage.move, Stage.updateWorld, World.task?_change, hu]
        simp [World.isOver, task, Task.isOver_stop asked]
      exact (drift_moves (calls.map (.stop round)) t').world.keeps.isOver stopped
    · refine ih (t := t') (fun k hk => ?_) k hk
      obtain ⟨u, hu, asked⟩ := asked k (List.mem_cons_of_mem _ hk)
      obtain ⟨v, hv, later⟩ := keeps round k u hu
      exact ⟨v, hv, asked.imp later.isOver later.aborted⟩

end Stops

section Attains

variable {ε : Type} {s s' : Scene ε} {request : JoinRequest} {round : Nat} {j : Join} {t : Stage}

/-- A join whose calls all have outcomes can return, once the calls that it gave up have stopped. -/
theorem Follows.returns (h : Follows request.targets.length round j t) (agree : Agree s t)
    (done : j.isDone = true) : Attains request round (some j) t (some j.settled, s) := by
  let moves := j.aborted.map (Move.stop round)
  have ended : ∀ i ∈ j.aborted, (moves.foldl Stage.move t).inner.isOver round i = true :=
    isOver_stops fun i hi => by
      obtain ⟨u, hu, aborted⟩ := h.aborted i hi
      exact ⟨u, hu, .inr aborted⟩
  have agree' : Agree s (moves.foldl Stage.move t) := agree.trans agree_stops
  refine ⟨moves.map .beside ++ [.run], (moves.foldl Stage.move t).stand .free [], ?_,
    fun _ => ⟨agree'.origin, agree'.clock, agree'.controls, agree'.started, agree'.recorder⟩⟩
  have returns : j.outcomes? ((moves.foldl Stage.move t).inner.isOver round) = some j.settled := by
    have all : j.aborted.all ((moves.foldl Stage.move t).inner.isOver round) = true :=
      List.all_eq_true.2 ended
    simp [Join.outcomes?, done, all]
  rw [Stage.await_beside, Stage.await]
  simp only [Option.bind_some, returns]

/-- What becomes of the scene beside the orchestrator leaves the join where it is. -/
theorem Follows.beside (h : Follows request.targets.length round j t) (agree : Agree s t)
    (beside : s.Beside s') :
    ∃ t', Leads request round j t j t' ∧ Follows request.targets.length round j t' ∧
      Agree s' t' := by
  obtain ⟨moves, agree', rounds, -⟩ := agree.exists_moves beside
  exact ⟨_, Leads.beside moves, h.of_rounds_eq rounds, agree'⟩

end Attains

end Schedule
end Vigil
