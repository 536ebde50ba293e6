import Vigil.Proofs.OneShot.Schedules
import Vigil.Rehearsal.GuardTrial

/-!
# Trials are schedules

A trial of a guard gives each caller its time, the length of its work and its patience, and takes
what happens in the order of these times. Every such order is one that a scheduler can decide: a
caller that gives up is dropped, and the callers that a trial lets through or puts to work at once
are those that go on next. So a trial ends as one of the schedules does, and what is certain of
these is certain of it.

The module introduces:

* `Rehearsal.CallerState.stand`, where a caller of a trial stands;
* `Rehearsal.GuardTrial.Tells`, a trial that has noted what has happened to the calls of a guard.
-/

namespace Vigil
namespace Crowd

theorem after_append (events more : List Event) :
    after (events ++ more) = (after events).run more :=
  List.foldl_append

end Crowd

namespace Rehearsal

def CallerState.stand (s : CallerState) : Stand :=
  if s.ended.isSome then .gone
  else if s.come then if s.ranAt.isSome then .working else .here
  else .away

namespace CallerState

theorem stand_of_ended {s : CallerState} {last : Nat × CallerResult} (ended : s.ended = some last) :
    s.stand = .gone := by
  simp [stand, ended]

theorem stand_eq_away {s : CallerState} : s.stand = .away ↔ s.ended = none ∧ s.come = false := by
  obtain ⟨caller, come, ranAt, ended⟩ := s
  cases ended <;> cases come <;> cases ranAt <;> simp [stand]

theorem stand_eq_here {s : CallerState} :
    s.stand = .here ↔ s.ended = none ∧ s.come = true ∧ s.ranAt = none := by
  obtain ⟨caller, come, ranAt, ended⟩ := s
  cases ended <;> cases come <;> cases ranAt <;> simp [stand]

theorem ended_of_stand {s : CallerState} (there : s.stand ≠ .gone) : s.ended = none := by
  cases ended : s.ended with
  | none => rfl
  | some last => exact absurd (stand_of_ended ended) there

end CallerState

namespace GuardTrial

/-- What a trial has noted of the caller `i` is what has happened to its call in the crowd `c`. -/
structure Shows (c : Crowd) (i : Nat) (s : CallerState) : Prop where
  stand : c.stands i = s.stand
  began : .begins i ∈ c.history ↔ s.ranAt.isSome
  answered : ∀ answer, .returns i answer ∈ c.history ↔
    ∃ time, s.ended = some (time, .answered answer)

/-- The trial `t` has noted what has happened to the calls of the crowd `c`, caller by caller. -/
structure Tells (t : GuardTrial) (c : Crowd) : Prop where
  guard : t.guard = c.guard
  closed : t.doneAt.isSome = c.guard.done
  shows : ∀ i s, t.callers[i]? = some s → Shows c i s
  /-- There are no calls but those of the callers. -/
  others : ∀ i, t.callers.length ≤ i → c.stands i = .away

theorem stand_of_pending {i j now : Nat} {s : CallerState} {e : TrialEvent}
    (due : (now, j, e) ∈ pending i s) : j = i ∧
      (e = .comes ∧ s.stand = .away ∨ e = .workEnds ∧ s.stand = .working ∨
        e = .givesUp ∧ (s.stand = .here ∨ s.stand = .working)) := by
  obtain ⟨caller, come, ranAt, ended⟩ := s
  -- Nothing more happens to a caller that has ended, and one that has not come can only come.
  cases ended with
  | some ended => exact absurd due List.not_mem_nil
  | none =>
    cases come with
    | false =>
      cases List.mem_singleton.1 due
      exact ⟨rfl, .inl ⟨rfl, rfl⟩⟩
    | true =>
      rcases List.mem_append.1 due with works | stays
      · cases ranAt with
        | none => exact absurd works List.not_mem_nil
        | some time =>
          cases List.mem_singleton.1 works
          exact ⟨rfl, .inr (.inl ⟨rfl, rfl⟩)⟩
      · obtain ⟨patience, -, same⟩ := List.mem_map.1 stays
        cases same
        cases ranAt <;> simp [CallerState.stand]

theorem exists_of_next? {t : GuardTrial} {now i : Nat} {e : TrialEvent}
    (next : t.next? = some (now, i, e)) :
    ∃ s, t.callers[i]? = some s ∧ (now, i, e) ∈ pending i s := by
  -- The earliest event is chosen by a fold, which returns one of the events.
  have chosen (first : Nat × Nat × TrialEvent) (rest : List (Nat × Nat × TrialEvent)) :
      rest.foldl earlier first ∈ first :: rest := by
    induction rest generalizing first with
    | nil => exact List.mem_singleton_self first
    | cons other rest ih =>
      rcases List.mem_cons.1 (ih (earlier first other)) with same | later
      · rw [List.foldl_cons, same]
        unfold earlier
        split
        · exact List.mem_cons_of_mem first List.mem_cons_self
        · exact List.mem_cons_self
      · exact List.mem_cons_of_mem first (List.mem_cons_of_mem other later)
  have due : (now, i, e) ∈ (t.callers.mapIdx pending).flatten := by
    unfold next? at next
    split at next
    · cases next
    · next first rest all =>
      rw [all, ← Option.some.inj next]
      exact chosen first rest
  obtain ⟨events, member, due⟩ := List.mem_flatten.1 due
  obtain ⟨j, inside, rfl⟩ := List.mem_mapIdx.1 member
  -- Pending events carry the number of their caller.
  obtain ⟨rfl, -⟩ := stand_of_pending due
  exact ⟨t.callers[i], List.getElem?_eq_getElem inside, due⟩

namespace Tells

variable {t : GuardTrial} {c : Crowd} {i : Nat} {s : CallerState}

theorem new (callers : List Caller) :
    Tells { callers := callers.map fun caller => { caller } } {} where
  guard := rfl
  closed := rfl
  shows i s there := by
    rw [List.getElem?_map] at there
    obtain ⟨caller, -, rfl⟩ := Option.map_eq_some_iff.1 there
    exact ⟨rfl, iff_of_false List.not_mem_nil nofun, fun _ => iff_of_false List.not_mem_nil nofun⟩
  others _ _ := rfl

theorem with_guard (h : Tells t c) : { t with guard := c.guard } = t := by
  rw [← h.guard]

theorem exists_of_stand (h : Tells t c) (there : c.stands i ≠ .away) :
    ∃ s, t.callers[i]? = some s := by
  by_cases inside : i < t.callers.length
  · exact ⟨t.callers[i], List.getElem?_eq_getElem inside⟩
  · exact absurd (h.others i (Nat.le_of_not_lt inside)) there

/-- Something happens to one caller, and the others stay as they are: `Tells` is kept if it
`Shows`. -/
theorem move (h : Tells t c) (there : t.callers[i]? = some s) {g : Guard} {d : Option Nat}
    {f : CallerState → CallerState} {new : Stand} {more : List Occurrence}
    (closed : d.isSome = g.done) (own : ∀ o ∈ more, o.call = i)
    (shows : Shows (({ c with guard := g }.stand i new).note more) i (f s)) :
    Tells (({ t with guard := g, doneAt := d } : GuardTrial).change i f)
      (({ c with guard := g }.stand i new).note more) where
  guard := rfl
  closed := closed
  shows j s' there' := by
    have changed : (t.callers.modify i f)[j]? = some s' := there'
    rw [List.getElem?_modify] at changed
    by_cases same : i = j
    · -- The caller itself.
      subst same
      rw [there] at changed
      simp only [if_true, Option.map_eq_map, Option.map_some, Option.some.injEq] at changed
      exact changed ▸ shows
    · -- What happens to one call tells nothing of another one.
      have before := h.shows j s' (by simpa [same] using changed)
      have apart (o : Occurrence) (call : o.call = j) : o ∈ c.history ++ more ↔ o ∈ c.history := by
        rw [List.mem_append, or_iff_left fun new => same ((own o new).symm.trans call)]
      refine ⟨?_, (apart _ rfl).trans before.began,
        fun a => (apart _ rfl).trans (before.answered a)⟩
      show Function.update c.stands i new j = _
      rw [Function.update_of_ne (Ne.symm same)]
      exact before.stand
  others j outside := by
    have length : t.callers.length ≤ j := by
      rw [← List.length_modify f t.callers i]
      exact outside
    have same : j ≠ i := by
      rintro rfl
      rw [List.getElem?_eq_none length] at there
      cases there
    show Function.update c.stands i new j = _
    rw [Function.update_of_ne same]
    exact h.others j length

theorem ranAt_of_away (h : Tells t c) (sound : c.Sound) (there : t.callers[i]? = some s)
    (away : s.stand = .away) : s.ranAt = none := by
  have shows := h.shows i s there
  rw [← Option.not_isSome_iff_eq_none, ← shows.began]
  exact fun began => sound.seen.unseen i (.inl (shows.stand.trans away)) _ began rfl

theorem begins (h : Tells t c) (there : t.callers[i]? = some s) (going : s.ended = none)
    {g : Guard} (isOpen : g.done = c.guard.done) {f : CallerState → CallerState} (now : Nat)
    (works : f s = { s with come := true, ranAt := some now }) :
    Tells (({ t with guard := g } : GuardTrial).change i f) ({ c with guard := g }.begin i) := by
  refine h.move there (h.closed.trans isOpen.symm) (by simp [Occurrence.call]) ⟨?_, ?_, ?_⟩
  · rw [works]
    show Function.update c.stands i .working i = _
    simp [CallerState.stand, going]
  · rw [works]
    exact iff_of_true (List.mem_append_right _ (List.mem_singleton_self _)) rfl
  · intro answer
    rw [works, ← (h.shows i s there).answered answer]
    simp [Crowd.note, Crowd.stand]

theorem ends (h : Tells t c) (there : t.callers[i]? = some s) (going : s.ended = none)
    {g : Guard} {d : Option Nat} (closed : d.isSome = g.done) {f : CallerState → CallerState}
    {now : Nat} {result : CallerResult} (ended : (f s).ended = some (now, result))
    (ran : (f s).ranAt = s.ranAt) {more : List Occurrence} (own : ∀ o ∈ more, o.call = i)
    (quiet : .begins i ∉ more)
    (answers : ∀ answer, .returns i answer ∈ more ↔ result = .answered answer) :
    Tells (({ t with guard := g, doneAt := d } : GuardTrial).change i f)
      (({ c with guard := g }.stand i .gone).note more) := by
  have before := h.shows i s there
  refine h.move there closed own ⟨?_, ?_, fun answer => ?_⟩
  · rw [CallerState.stand_of_ended ended]
    exact Function.update_self ..
  · rw [ran, ← before.began]
    show _ ∈ c.history ++ more ↔ _
    rw [List.mem_append, or_iff_left quiet]
  · -- The caller has not ended before, so its answer stands among the new occurrences.
    have new : .returns i answer ∉ c.history := by
      rw [before.answered, going]
      rintro ⟨time, ⟨⟩⟩
    show _ ∈ c.history ++ more ↔ _
    rw [List.mem_append, or_iff_right new, answers, ended]
    simp

theorem passes (h : Tells t c) (there : t.callers[i]? = some s) (going : s.ended = none)
    {f : CallerState → CallerState} {now : Nat}
    (ended : (f s).ended = some (now, .answered (.ok ()))) (ran : (f s).ranAt = s.ranAt) :
    Tells (t.change i f) (c.pass i) := by
  have after : Tells (GuardTrial.change { t with guard := c.guard } i f) (c.pass i) :=
    h.ends there going h.closed ended ran (by simp [Occurrence.call]) (by simp) (by simp [eq_comm])
  rwa [h.with_guard] at after

theorem comes (h : Tells t c) (sound : c.Sound) (there : t.callers[i]? = some s)
    (away : s.stand = .away) (now : Nat) :
    Tells (t.happen now i .comes) (c.step (.goesOn i)) := by
  obtain ⟨going, -⟩ := CallerState.stand_eq_away.1 away
  have fresh := h.ranAt_of_away sound there away
  have stands := (h.shows i s there).stand.trans away
  have twice (t : GuardTrial) (f g : CallerState → CallerState) :
      (t.change i f).change i g = t.change i (g ∘ f) := by
    simp [change, List.modify_modify_eq]
  unfold happen Crowd.step
  simp only [stands, h.guard]
  rcases c.guard.enter_cases i with ⟨done, passes⟩ | ⟨isOpen, free, works⟩ | ⟨isOpen, busy, waits⟩
  · simp only [passes, h.with_guard]
    show Tells ((t.change i _).change i _) _
    rw [twice]
    exact h.passes there going rfl rfl
  · simp only [works]
    show Tells
      ((GuardTrial.change { t with guard := { c.guard with worker := some i } } i _).change i _) _
    rw [twice]
    exact h.begins (g := { c.guard with worker := some i }) there going rfl now rfl
  · simp only [waits]
    -- Nothing has happened to the call, but it has come.
    have after : Tells (GuardTrial.change
        { t with guard := { c.guard with waiting := c.guard.waiting ++ [i] } } i fun s =>
          { s with come := true })
        ((Crowd.stand { c with guard := { c.guard with waiting := c.guard.waiting ++ [i] } } i
          .here).note []) := by
      refine h.move there h.closed nofun ⟨?_, ?_, fun answer => ?_⟩
      · show Function.update c.stands i .here i = _
        rw [Function.update_self, eq_comm, CallerState.stand_eq_here]
        exact ⟨going, rfl, fresh⟩
      · simpa [Crowd.note, Crowd.stand] using (h.shows i s there).began
      · simpa [Crowd.note, Crowd.stand] using (h.shows i s there).answered answer
    simpa [Crowd.note] using after

/-- Callers that wait pass the guard when it is closed, one after the other. -/
theorem passes_all {ids : List Nat} (h : Tells t c) (done : c.guard.done = true)
    (wait : ∀ i ∈ ids, c.stands i = .here) (once : ids.Nodup) (now : Nat) :
    Tells (t.finish now (.answered (.ok ())) ids) (c.run (ids.map .goesOn)) := by
  induction ids generalizing t c with
  | nil => exact h
  | cons i ids ih =>
    have here := wait i List.mem_cons_self
    obtain ⟨new, once⟩ := List.nodup_cons.1 once
    obtain ⟨s, there⟩ := h.exists_of_stand (i := i) (by simp [here])
    have going := CallerState.ended_of_stand (s := s) (by
      rw [← (h.shows i s there).stand, here]
      decide)
    have passes : c.step (.goesOn i) = c.pass i := Crowd.step_goesOn_of_done (.inr here) done
    show Tells ((t.change i _).finish now _ ids) ((c.step (.goesOn i)).run (ids.map .goesOn))
    rw [passes]
    -- The others still wait: their callers are not this one.
    refine ih (h.passes there going rfl rfl) done (fun j later => ?_) once
    have same : j ≠ i := by
      rintro rfl
      exact new later
    show Function.update c.stands i .gone j = .here
    rw [Function.update_of_ne same]
    exact wait j (List.mem_cons_of_mem i later)

/-- The work of a caller comes out with an answer, and those that wait pass. -/
theorem completes (h : Tells t c) (sound : c.Sound) (there : t.callers[i]? = some s)
    (works : s.stand = .working) (now : Nat) (answer : Except Error Unit) :
    Tells ((({ t with guard := t.guard.complete.2, doneAt := some now } : GuardTrial).finish now
        (.answered answer) [i]).finish now (.answered (.ok ())) t.guard.complete.1)
      (c.run (.completes i answer :: c.guard.waiting.map .goesOn)) := by
  have stands : c.stands i = .working := (h.shows i s there).stand.trans works
  have going := CallerState.ended_of_stand (s := s) (by simp [works])
  have completes : c.step (.completes i answer) = c.complete i answer := by
    simp [Crowd.step, stands]
  rw [h.guard]
  show Tells _ ((c.step (.completes i answer)).run (c.guard.waiting.map .goesOn))
  rw [completes]
  have first : Tells (GuardTrial.change { t with guard := c.guard.complete.2, doneAt := some now } i
      fun s => { s with ended := some (now, .answered answer) }) (c.complete i answer) :=
    h.ends there going rfl rfl rfl (by simp [Occurrence.call]) (by simp) (by simp [eq_comm])
  -- Whoever waited still stands at the guard, which is closed now.
  refine first.passes_all rfl (fun j waits => ?_) sound.serves.nodup now
  have here := (sound.serves.waiting j waits).1
  have same : j ≠ i := by
    rintro rfl
    cases here.symm.trans stands
  show Function.update c.stands i .gone j = .here
  rwa [Function.update_of_ne same]

/-- A caller leaves without an answer, and the one that is next begins its work. -/
theorem leaves (h : Tells t c) (sound : c.Sound) (there : t.callers[i]? = some s)
    (going : s.ended = none) (now : Nat) {result : CallerResult}
    (none : ∀ answer, result ≠ .answered answer) :
    Tells (t.leave now i result) ((c.leave i).run ((c.guard.withdraw i).1.toList.map .goesOn)) := by
  have first : Tells (GuardTrial.change { t with guard := (c.guard.withdraw i).2 } i fun s =>
      { s with ended := some (now, result) }) (c.leave i) :=
    h.ends there going (h.closed.trans (c.guard.done_withdraw i).symm) rfl rfl
      (by simp [Occurrence.call]) (by simp) (by simpa using none)
  unfold leave
  rw [h.guard]
  rcases c.guard.withdraw_cases i with ⟨-, -, leaves⟩ | ⟨next, rest, own, queue, leaves⟩ |
    ⟨-, leaves⟩
  · rw [leaves] at first ⊢
    exact first
  · -- The call that has waited longest has the turn, and its body begins.
    obtain ⟨here, other⟩ := sound.serves.waiting next (by rw [queue]; exact List.mem_cons_self)
    have same : next ≠ i := by
      rintro rfl
      exact other own
    have here : (c.leave i).stands next = .here := by
      show Function.update c.stands i .gone next = _
      rwa [Function.update_of_ne same]
    have turn : (c.leave i).guard.worker = some next := by
      show (c.guard.withdraw i).2.worker = _
      rw [leaves]
    have isOpen : (c.leave i).guard.done = false :=
      (c.guard.done_withdraw i).trans (sound.serves.isOpen own)
    have works : (c.leave i).step (.goesOn next) = (c.leave i).begin next := by
      rw [Crowd.step_goesOn_of_turn isOpen (.inr ⟨here, turn⟩), ← turn]
    obtain ⟨s', there'⟩ := first.exists_of_stand (i := next) (by simp [here])
    have stand := (first.shows next s' there').stand.symm.trans here
    obtain ⟨going', come, -⟩ := CallerState.stand_eq_here.1 stand
    have second := first.begins (g := (c.leave i).guard)
      (f := fun s => { s with ranAt := some now }) there' going' rfl now (by rw [← come])
    rw [first.with_guard] at second
    rw [leaves] at second ⊢
    show Tells _ ((c.leave i).step (.goesOn next))
    rw [works]
    exact second
  · rw [leaves] at first ⊢
    exact first

/-- Whatever happens next in a trial, a scheduler can decide it: the step lemma of `Tells`. -/
theorem happen (h : Tells t c) (sound : c.Sound) (there : t.callers[i]? = some s) {now : Nat}
    {e : TrialEvent} (due : (now, i, e) ∈ pending i s) :
    ∃ events, Tells (t.happen now i e) (c.run events) := by
  have stands := (h.shows i s there).stand
  obtain ⟨-, ⟨rfl, away⟩ | ⟨rfl, works⟩ | ⟨rfl, waits⟩⟩ := stand_of_pending due
  · exact ⟨[.goesOn i], h.comes sound there away now⟩
  · have going := CallerState.ended_of_stand (s := s) (by simp [works])
    unfold GuardTrial.happen
    simp only [there]
    cases s.caller.ending with
    | panicked reason =>
      -- The work that breaks off is handed on like that of a caller that gives up.
      have panics : c.step (.panics i) = c.leave i := by
        simp [Crowd.step, stands, works]
      refine ⟨.panics i :: (c.guard.withdraw i).1.toList.map .goesOn, ?_⟩
      show Tells _ ((c.step (.panics i)).run _)
      rw [panics]
      exact h.leaves sound there going now (by simp)
    | failed e => exact ⟨_, h.completes sound there works now (.error e)⟩
    | returned answer => exact ⟨_, h.completes sound there works now (.ok ())⟩
  · have still : s.stand ≠ .gone := by rcases waits with here | works <;> simp [*]
    have drops : c.step (.drops i) = c.leave i := by
      simp [Crowd.step, stands, still]
    refine ⟨.drops i :: (c.guard.withdraw i).1.toList.map .goesOn, ?_⟩
    show Tells _ ((c.step (.drops i)).run _)
    rw [drops]
    exact h.leaves sound there (CallerState.ended_of_stand still) now (by simp)

theorem runWithin {events : List Crowd.Event} (h : Tells t (Crowd.after events)) (n : Nat) :
    ∃ events, Tells (t.runWithin n) (Crowd.after events) := by
  induction n generalizing t events with
  | zero => exact ⟨events, h⟩
  | succ n ih =>
    unfold GuardTrial.runWithin
    cases next : t.next? with
    | none => exact ⟨events, h⟩
    | some event =>
      obtain ⟨now, i, e⟩ := event
      obtain ⟨s, there, due⟩ := exists_of_next? next
      obtain ⟨more, after⟩ := h.happen (Crowd.sound_after events) there due
      rw [← Crowd.after_append] at after
      exact ih after

end Tells

/-- Every trial of a guard follows a schedule of the calls of its callers, so what is proved of all
schedules holds of trials. -/
theorem exists_schedule (callers : List Caller) :
    ∃ events, Tells (run callers) (Crowd.after events) := by
  have before : Tells _ (Crowd.after []) := .new callers
  exact before.runWithin _

end GuardTrial
end Rehearsal
end Vigil
