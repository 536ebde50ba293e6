import Vigil.Proofs.Schedule.Whole

/-!
# Faults stay with their observer

Two whole runs in which all observers but one come out alike: whatever the one does, the others keep
their records and their intervals, in the same order, and are called in the same phases. An
observer's share of a stream cannot be told from the intervals themselves, so every interval is
marked with whether it comes from the one.

The module introduces:

* `Tape`, what the recorder of a run let in, marked, and `contributions`, the marked intervals of
  which a final stream is made;
* `Whole.Accounted`, what can be said of a run by itself;
* `AlikeBut`, when two runs come out alike but for one observer, and `Isolated`, what follows.
-/

namespace Vigil.Schedule

/-- An interval, marked with whether it comes from the observer whose faults are looked at. -/
abbrev Marked := Bool × Interval

def fromOthers (l : List Marked) : List Marked := l.filter fun m => !m.1

theorem fromOthers_append (l l' : List Marked) :
    fromOthers (l ++ l') = fromOthers l ++ fromOthers l' :=
  List.filter_append ..

/-- What the recorder of a run let in, with the marks that a log of the recorder cannot show. -/
structure Tape where
  /-- The intervals that it let in until collection. -/
  early : List Marked
  /-- Those that it let in between collection and construction. -/
  late : List Marked

/-- The intervals that the calls of a phase hand over, marked as to whether the observer `i` made
them. -/
def markedYields (i : Nat) (outcomes : List CallOutcome) : List Marked :=
  outcomes.zipIdx.flatMap fun c => (intervalsOfCall c.1).map fun interval => (c.2 == i, interval)

/-- What a final stream is made of, marked as to the observer `i`: the `tape` of the recorder and
what the first phases handed over, in the order in which construction puts them together. -/
def contributions (i : Nat) (w : World) (tape : Tape) : List Marked :=
  tape.early ++ markedYields i (w.outcomesOf .collection) ++
    markedYields i (w.outcomesOf .construction) ++ tape.late

/-- A final stream whose intervals keep their marks: the stable order of its `contributions`. -/
def markedStream (i : Nat) (w : World) (tape : Tape) : List Marked :=
  sortBy (fun m => m.2.start) (contributions i w tape)

theorem map_markedYields (i : Nat) (outcomes : List CallOutcome) :
    (markedYields i outcomes).map Prod.snd = outcomes.flatMap intervalsOfCall := by
  have plain : outcomes.zipIdx.map Prod.fst = outcomes := List.zipIdx_map_fst 0 outcomes
  rw [markedYields, List.map_flatMap]
  simp only [List.map_map, Function.comp_def, List.map_id']
  rw [← List.flatMap_map (f := Prod.fst) (g := intervalsOfCall), plain]

/-- What the others hand over does not depend on the outcomes of `i`. -/
theorem fromOthers_markedYields {i : Nat} {outcomes outcomes' : List CallOutcome}
    (length : outcomes.length = outcomes'.length)
    (alike : ∀ j, j ≠ i → outcomes[j]? = outcomes'[j]?) :
    fromOthers (markedYields i outcomes) = fromOthers (markedYields i outcomes') := by
  let share (c : CallOutcome × Nat) : List Marked :=
    fromOthers ((intervalsOfCall c.1).map fun interval => (c.2 == i, interval))
  have shares (l : List CallOutcome) :
      fromOthers (markedYields i l) = (l.zipIdx.map share).flatten := by
    rw [fromOthers, markedYields, List.filter_flatMap, List.flatMap_def]
    rfl
  -- The one has no share in what comes from the others, so position by position all is the same.
  have silent (outcome : CallOutcome) : share (outcome, i) = [] := by
    simp [share, fromOthers]
  rw [shares, shares]
  refine congrArg List.flatten (List.ext_getElem (by simp [length]) fun j lt lt' => ?_)
  simp only [List.getElem_map, List.getElem_zipIdx, Nat.zero_add]
  by_cases one : j = i
  · subst one
    exact (silent _).trans (silent _).symm
  · have same := alike j one
    rw [List.length_map, List.length_zipIdx] at lt lt'
    rw [List.getElem?_eq_getElem lt, List.getElem?_eq_getElem lt'] at same
    rw [Option.some.inj same]

section

variable (registry : Registry) (limits : Limits) (inputs : RunInputs) (i : Nat)

/-- The `tape` tells what the recorder of the run `w` let in, before collection and since. -/
structure Whole.Heard (w : Whole) (tape : Tape) : Prop where
  early : (w.upTo registry limits inputs 2).world.accepted = tape.early.map Prod.snd
  late : (w.upTo registry limits inputs 3).world.accepted =
    (w.upTo registry limits inputs 2).world.accepted ++ tape.late.map Prod.snd

/-- What can be said of a whole run by itself: no command returns an error, every observer is called
in every phase, and the final stream is `markedStream` without its marks. -/
structure Whole.Accounted (w : Whole) (tape : Tape) : Prop where
  answers : ∀ n c, (inputs.commands w.window)[n]? = some c →
    ((w.asking registry limits inputs n c).ask c (w.slots c.phase)).1 = .ok ()
  calls : ∀ j < registry.entries.length,
    (w.upTo registry limits inputs 6).world.callsOn j = Phase.all
  stream : (w.upTo registry limits inputs 6).orchestrator.report.intervals.intervals =
    (markedStream i (w.upTo registry limits inputs 6).world tape).map Prod.snd

/-- Two whole runs of one roster come out alike but for the observer `i`, which may return, fail or
panic in either, and may hand over and record whatever it does. -/
structure AlikeBut (w w' : Whole) (tape tape' : Tape) : Prop where
  complete : w.Complete registry limits inputs
  complete' : w'.Complete registry limits inputs
  heard : w.Heard registry limits inputs tape
  heard' : w'.Heard registry limits inputs tape'
  /-- The calls of the others came out the same in every phase. -/
  outcomes : ∀ phase, ∀ j, j ≠ i →
    ((w.upTo registry limits inputs 6).world.outcomesOf phase)[j]? =
      ((w'.upTo registry limits inputs 6).world.outcomesOf phase)[j]?
  /-- The recorder let in the same from the others, before and after collection. -/
  early : fromOthers tape.early = fromOthers tape'.early
  late : fromOthers tape.late = fromOthers tape'.late

/-- What the observer `i` does makes no difference to the others: neither to their records nor to
their share of the final stream, and neither run returns an error. -/
structure Isolated (w w' : Whole) (tape tape' : Tape) : Prop where
  accounted : w.Accounted registry limits inputs i tape
  accounted' : w'.Accounted registry limits inputs i tape'
  /-- The others have the same records, phase by phase. -/
  results : ∀ j o, registry.entries[j]? = some o → j ≠ i →
    (w.upTo registry limits inputs 6).orchestrator.report.resultsFrom o.name =
      (w'.upTo registry limits inputs 6).orchestrator.report.resultsFrom o.name
  /-- The final streams without what comes from `i` are the same, order included. -/
  others : fromOthers (markedStream i (w.upTo registry limits inputs 6).world tape) =
    fromOthers (markedStream i (w'.upTo registry limits inputs 6).world tape')

end

section

variable {registry : Registry} {limits : Limits} {inputs : RunInputs} {i : Nat}
  {w w' : Whole} {tape tape' : Tape}

/-- What comes from the others stands in the order of its starts, whatever comes from `i`: sorting
is stable and commutes with leaving intervals out. -/
theorem fromOthers_markedStream (i : Nat) (w : World) (tape : Tape) :
    fromOthers (markedStream i w tape) =
      sortBy (fun m => m.2.start) (fromOthers (contributions i w tape)) :=
  filter_sortBy _ _

namespace Whole.Complete

theorem length_outcomesOf (h : w.Complete registry limits inputs) (phase : Phase) :
    ((w.upTo registry limits inputs 6).world.outcomesOf phase).length =
      registry.entries.length := by
  have called : phase ∈ (w.upTo registry limits inputs 6).world.ledger.map
      fun e => e.1.call.phase := by
    rw [h.phases]
    cases phase <;> decide
  obtain ⟨e, he, rfl⟩ := List.mem_map.1 called
  exact (h.mem_ledger he).2.2

theorem accounted (h : w.Complete registry limits inputs)
    (heard : w.Heard registry limits inputs tape) (i : Nat) :
    w.Accounted registry limits inputs i tape where
  answers _ _ next := h.answer next
  calls j lt := by
    rw [callsOn_of_trace (h.calls_upTo (Nat.le_refl 6)) lt]
    rfl
  stream := by
    obtain ⟨received, grown, final⟩ := h.final
    have same : tape.late.map Prod.snd = received :=
      List.append_cancel_left (heard.late.symm.trans grown)
    rw [final, markedStream, map_sortBy Prod.snd, contributions, List.map_append, List.map_append,
      List.map_append, map_markedYields, map_markedYields, heard.early, same]

end Whole.Complete

namespace AlikeBut

variable (h : AlikeBut registry limits inputs i w w' tape tape')
include h

theorem fromOthers_yields (phase : Phase) :
    fromOthers (markedYields i ((w.upTo registry limits inputs 6).world.outcomesOf phase)) =
      fromOthers (markedYields i ((w'.upTo registry limits inputs 6).world.outcomesOf phase)) :=
  fromOthers_markedYields
    ((h.complete.length_outcomesOf phase).trans (h.complete'.length_outcomesOf phase).symm)
    (h.outcomes phase)

theorem fromOthers_contributions :
    fromOthers (contributions i (w.upTo registry limits inputs 6).world tape) =
      fromOthers (contributions i (w'.upTo registry limits inputs 6).world tape') := by
  simp only [contributions, fromOthers_append]
  rw [h.early, h.fromOthers_yields, h.fromOthers_yields, h.late]

end AlikeBut

/-- Whatever one observer does, the others keep their records and their intervals, and neither run
returns an error: two runs that are `AlikeBut` for it are `Isolated` from it. -/
theorem fault_isolation (h : AlikeBut registry limits inputs i w w' tape tape') :
    Isolated registry limits inputs i w w' tape tape' where
  accounted := h.complete.accounted h.heard i
  accounted' := h.complete'.accounted h.heard' i
  results j o registered other := by
    rw [h.complete.resultsFrom registered, h.complete'.resultsFrom registered]
    refine List.flatMap_congr fun phase _ => ?_
    rw [h.outcomes phase j other]
  others := by
    rw [fromOthers_markedStream, fromOthers_markedStream, h.fromOthers_contributions]

end

def faultInputs : RunInputs where
  access := ⟨"", none, none, none, none, false⟩
  storageDir := ""

/-- A whole run of two observers of which the second hands over one interval in every phase. An
interval of its own reaches the recorder before collection and another one before construction,
beside those of the first observer. -/
def faultWhole (ending : Ending) (first : List Interval) : Whole where
  runId := ""
  origin := 0
  window := default
  before := fun phase =>
    if phase = .collection then first.map .record ++ [.record tie]
    else if phase = .construction then [.record tie] ++ first.map .record else []
  slots := fun phase => served (Phase.all.idxOf phase) [ending, .returned { intervals := [tie] }]

/-- What the recorder lets in during `faultWhole`, marked as to the first observer. -/
def faultTape (first : List Interval) : Tape where
  early := first.map (fun interval => (true, interval)) ++ [(false, tie)]
  late := [(false, tie)] ++ first.map fun interval => (true, interval)

/-- The first observer records and hands over intervals in one run and panics in the other. -/
theorem fault_isolation_of_panic :
    let limits : Limits := ⟨.ofSecs 60, .ofSecs 60, .ofSecs 5⟩
    let steady : Ending := .returned { intervals := [.opened ⟨3⟩ "c" "a" "own"] }
    let recorded : List Interval := [.opened ⟨7⟩ "c" "a" "own"]
    Isolated tieRegistry limits faultInputs 0 (faultWhole steady recorded)
      (faultWhole (.panicked none) []) (faultTape recorded) (faultTape []) := by
  intro limits steady recorded
  exact fault_isolation
    { complete := ⟨by decide +kernel, by decide +kernel⟩
      complete' := ⟨by decide +kernel, by decide +kernel⟩
      heard := ⟨by decide +kernel, by decide +kernel⟩
      heard' := ⟨by decide +kernel, by decide +kernel⟩
      outcomes := by
        -- Without the outcomes of the first observer the phases have the same ones in both runs.
        have outcomes : ∀ phase,
            (((faultWhole steady recorded).upTo tieRegistry limits
              faultInputs 6).world.outcomesOf phase).drop 1 =
            (((faultWhole (.panicked none) []).upTo tieRegistry limits
              faultInputs 6).world.outcomesOf phase).drop 1 := by
          intro phase
          cases phase <;> decide +kernel
        intro phase j other
        obtain ⟨j, rfl⟩ := Nat.exists_eq_succ_of_ne_zero other
        simpa [Nat.add_comm 1] using congrArg (·[j]?) (outcomes phase)
      early := rfl
      late := rfl }

end Vigil.Schedule
