import Vigil.Interval.Timeline

/-!
# The stable order of a timeline

A timeline has exactly one stable order: its intervals stand in the order of their starts, and those
with the same start stand as they were added. Sorting puts a timeline in this order, and a part that
was put in order before does not change it. Leaving some members out before or after sorting is the
same, so what is left does not depend on them.

The module introduces:

* `sortBy`, the members of a list in the order of some instants, and its laws;
* `Timeline.StableSort`, the stable order of a timeline.
-/

namespace Vigil

namespace Timestamp

theorem le_trans {a b c : Timestamp} (hab : a ≤ b) (hbc : b ≤ c) : a ≤ c :=
  Int.le_trans hab hbc

theorem le_total (a b : Timestamp) : a ≤ b ∨ b ≤ a := Int.le_total a.nanos b.nanos

theorem le_antisymm {a b : Timestamp} (hab : a ≤ b) (hba : b ≤ a) : a = b := by
  cases a
  cases b
  exact congrArg mk (Int.le_antisymm hab hba)

end Timestamp

/-! ## Sorting by an instant -/

section SortBy

variable {α β : Type} (key : α → Timestamp)

/-- Whether the member `a` comes no later than `b`, by the instants that `key` gives them. -/
def noLater (a b : α) : Bool := decide (key a ≤ key b)

theorem noLater_trans (a b c : α) (hab : noLater key a b = true) (hbc : noLater key b c = true) :
    noLater key a c = true :=
  decide_eq_true (Timestamp.le_trans (of_decide_eq_true hab) (of_decide_eq_true hbc))

theorem noLater_total (a b : α) : (noLater key a b || noLater key b a) = true := by
  simp only [noLater, Bool.or_eq_true, decide_eq_true_eq]
  exact Timestamp.le_total (key a) (key b)

/-- The members of `l` in the order of their instants. Those with the same instant stay as they
stand. -/
def sortBy (l : List α) : List α := l.mergeSort (noLater key)

theorem pairwise_sortBy (l : List α) : (sortBy key l).Pairwise fun a b => key a ≤ key b := by
  have sorted := List.pairwise_mergeSort (noLater_trans key) (noLater_total key) l
  exact sorted.imp of_decide_eq_true

/-- Sorting keeps the members with the same instant as they stand, one instant at a time. -/
theorem ties_sortBy (l : List α) (instant : Timestamp) :
    (sortBy key l).filter (fun a => key a == instant) = l.filter fun a => key a == instant := by
  -- Members with the same instant are in order already, so sorting leaves them in place.
  have tied : (l.filter fun a => key a == instant).Pairwise
      fun a b => noLater key a b = true := by
    refine List.pairwise_of_forall_mem_list fun a ha b hb => ?_
    simp only [List.mem_filter, beq_iff_eq] at ha hb
    rw [noLater, ha.2, hb.2]
    exact decide_eq_true (Int.le_refl instant.nanos)
  have kept : List.Sublist (l.filter fun a => key a == instant) (sortBy key l) :=
    List.sublist_mergeSort (noLater_trans key) (noLater_total key) tied List.filter_sublist
  have within := kept.filter fun a => key a == instant
  rw [List.filter_filter] at within
  simp only [Bool.and_self] at within
  have length : ((sortBy key l).filter fun a => key a == instant).length =
      (l.filter fun a => key a == instant).length :=
    ((List.mergeSort_perm l _).filter _).length_eq
  exact (within.eq_of_length length.symm).symm

theorem mem_iff_of_ties {l l' : List α}
    (ties : ∀ instant, l.filter (fun a => key a == instant) =
      l'.filter fun a => key a == instant)
    (a : α) : a ∈ l ↔ a ∈ l' := by
  have same := congrArg (a ∈ ·) (ties (key a))
  simpa using same

variable {key}

/-- Two lists in the order of their instants are the same if the members with the same instant are:
a list in order is known by its ties. -/
theorem eq_of_ordered_of_ties {l l' : List α} (hl : l.Pairwise fun a b => key a ≤ key b)
    (hl' : l'.Pairwise fun a b => key a ≤ key b)
    (ties : ∀ instant, l.filter (fun a => key a == instant) =
      l'.filter fun a => key a == instant) :
    l = l' := by
  induction l generalizing l' with
  | nil =>
    cases l' with
    | nil => rfl
    | cons b l' =>
      exact absurd ((mem_iff_of_ties key ties b).2 (List.mem_cons_self ..)) List.not_mem_nil
  | cons a l ih =>
    cases l' with
    | nil =>
      exact absurd ((mem_iff_of_ties key ties a).1 (List.mem_cons_self ..)) List.not_mem_nil
    | cons b l' =>
      obtain ⟨first, ordered⟩ := List.pairwise_cons.1 hl
      obtain ⟨first', ordered'⟩ := List.pairwise_cons.1 hl'
      -- Each head comes no later than the other one.
      have le : key a ≤ key b := by
        rcases List.mem_cons.1 ((mem_iff_of_ties key ties b).2 (List.mem_cons_self ..))
          with rfl | later
        · exact Int.le_refl _
        · exact first b later
      have le' : key b ≤ key a := by
        rcases List.mem_cons.1 ((mem_iff_of_ties key ties a).1 (List.mem_cons_self ..))
          with rfl | later
        · exact Int.le_refl _
        · exact first' a later
      have same : key a = key b := Timestamp.le_antisymm le le'
      have heads := ties (key a)
      simp only [List.filter_cons, same, beq_self_eq_true, if_true] at heads
      obtain ⟨rfl, -⟩ := List.cons.inj heads
      refine congrArg (a :: ·) (ih ordered ordered' fun instant => ?_)
      have both := ties instant
      simp only [List.filter_cons] at both
      split at both
      · exact (List.cons.inj both).2
      · exact both

/-- Leaving members out before or after `sortBy` is the same. -/
theorem filter_sortBy (p : α → Bool) (l : List α) :
    (sortBy key l).filter p = sortBy key (l.filter p) := by
  refine eq_of_ordered_of_ties ((pairwise_sortBy key l).filter p)
    (pairwise_sortBy key (l.filter p)) fun instant => ?_
  rw [ties_sortBy, List.filter_filter, List.filter_filter]
  simp only [Bool.and_comm]
  rw [← List.filter_filter, ← List.filter_filter, ties_sortBy]

theorem map_sortBy {key : β → Timestamp} (f : α → β) (l : List α) :
    (sortBy (fun a => key (f a)) l).map f = sortBy key (l.map f) :=
  List.map_mergeSort fun _ _ _ _ => rfl

end SortBy

namespace Timeline

/-- The intervals of `t` that begin at `start`, in their order. -/
def startingAt (t : Timeline) (start : Timestamp) : List Interval :=
  t.intervals.filter fun i => i.start == start

@[simp]
theorem startingAt_append (t u : Timeline) (start : Timestamp) :
    (t ++ u).startingAt start = t.startingAt start ++ u.startingAt start := by
  simp [startingAt]

/-- `sorted` is the stable order of `t`. -/
structure StableSort (t sorted : Timeline) : Prop where
  /-- The starts never decrease. -/
  ordered : sorted.intervals.Pairwise fun a b => a.start ≤ b.start
  /-- The intervals with the same start are those of `t` and stand as in `t`. -/
  ties : ∀ start, sorted.startingAt start = t.startingAt start

theorem intervals_sort (t : Timeline) : t.sort.intervals = sortBy Interval.start t.intervals := rfl

/-- Sorting puts a timeline in its stable order, which `unique` says is the only one. -/
theorem stableSort_sort (t : Timeline) : StableSort t t.sort where
  ordered := pairwise_sortBy Interval.start t.intervals
  ties := ties_sortBy Interval.start t.intervals

namespace StableSort

variable {t u v w : Timeline}

/-- Putting a part in order before does not change the order of the whole, so streams may be merged
in steps. -/
theorem of_append_sort (h : StableSort (u ++ v) w) (part : StableSort t u) :
    StableSort (t ++ v) w where
  ordered := h.ordered
  ties start := by
    rw [h.ties, startingAt_append, startingAt_append, part.ties]

/-- A timeline has only one stable order, as a list in order is known by its ties. -/
theorem unique (hu : StableSort t u) (hv : StableSort t v) : u = v := by
  have same : u.intervals = v.intervals :=
    eq_of_ordered_of_ties hu.ordered hv.ordered fun start =>
      (hu.ties start).trans (hv.ties start).symm
  cases u
  cases v
  exact congrArg Timeline.mk same

end StableSort
end Timeline
end Vigil
