import Vigil.Proofs.StableSort

/-!
# Laws of timelines

Sorting keeps every interval and puts the timeline in its stable order, and sorting again changes
nothing. Intervals can be chosen by any condition before or after sorting, and before or after two
timelines are put together, and a timeline may be sorted before another one is added to it. Over any
number of edits a timeline holds each interval as often as it was added since the last edit that
dropped it.

The module introduces:

* `Edit`, one change of a timeline, with the intervals that it adds (`Edit.added`) and those that it
  takes away (`Edit.Drops`), and `edits`, any number of changes;
* `Laws`, what is certain of timelines.
-/

namespace Vigil.Timeline

variable {t u : Timeline} {p : Interval → Bool} {i : Interval}

/-! ## Sorting -/

theorem sort_perm (t : Timeline) : t.sort.intervals.Perm t.intervals :=
  List.mergeSort_perm t.intervals startsBefore

theorem sort_sort (t : Timeline) : t.sort.sort = t.sort := by
  -- Sorting twice gives the stable order of the timeline before both.
  have again : StableSort t t.sort.sort :=
    { ordered := t.sort.stableSort_sort.ordered
      ties := fun start =>
        (t.sort.stableSort_sort.ties start).trans (t.stableSort_sort.ties start) }
  exact again.unique t.stableSort_sort

theorem sort_append_sort (t u : Timeline) : (t.sort ++ u).sort = (t ++ u).sort :=
  ((t.sort ++ u).stableSort_sort.of_append_sort t.stableSort_sort).unique (t ++ u).stableSort_sort

theorem filter_sort (t : Timeline) (p : Interval → Bool) :
    t.sort.filter p = (t.filter p).sort :=
  congrArg mk (filter_sortBy p t.intervals)

theorem filter_append (t u : Timeline) (p : Interval → Bool) :
    (t ++ u).filter p = t.filter p ++ u.filter p :=
  congrArg mk (List.filter_append ..)

/-! ## Edits -/

/-- How often the interval `i` stands in the timeline `t`. -/
def count (t : Timeline) (i : Interval) : Nat := t.intervals.count i

/-- One change of a timeline: one of the ways in which its intervals are added, replaced, sorted or
left out. -/
inductive Edit where
  | push (i : Interval)
  | extend (u : Timeline)
  /-- Puts these intervals in place of all others. -/
  | replace (is : List Interval)
  | sort
  | filter (p : Interval → Bool)

/-- The timeline `t` after an edit. -/
def edit (t : Timeline) : Edit → Timeline
  | .push i => t.push i
  | .extend u => t ++ u
  | .replace is => ⟨is⟩
  | .sort => t.sort
  | .filter p => t.filter p

/-- The timeline `t` after some edits, one after the other. -/
def edits (t : Timeline) (es : List Edit) : Timeline := es.foldl edit t

namespace Edit

def added : Edit → List Interval
  | push i => [i]
  | extend u => u.intervals
  | replace is => is
  | sort => []
  | filter _ => []

/-- The edit takes away whatever stood there of `i`. -/
def Drops (i : Interval) : Edit → Prop
  | replace _ => True
  | filter p => p i = false
  | push _ | extend _ | sort => False

end Edit

/-- After an edit that `Drops` an interval only what it adds is there. -/
theorem count_edit_of_drops {e : Edit} (t : Timeline) (drops : e.Drops i) :
    (t.edit e).count i = e.added.count i := by
  cases e with
  | replace is => rfl
  | filter p =>
    have gone : i ∉ (t.filter p).intervals := by
      intro member
      have chosen := (List.mem_filter.1 member).2
      rw [show p i = false from drops] at chosen
      cases chosen
    exact List.count_eq_zero_of_not_mem gone
  | push j => cases drops
  | extend u => cases drops
  | sort => cases drops

theorem count_edit_of_keeps {e : Edit} (t : Timeline) (keeps : ¬e.Drops i) :
    (t.edit e).count i = t.count i + e.added.count i := by
  cases e with
  | push j => exact List.count_append
  | extend u => exact List.count_append
  | replace is => exact absurd trivial keeps
  | sort => exact t.sort_perm.count_eq i
  | filter p =>
    have chosen : p i = true := by simpa [Edit.Drops] using keeps
    exact List.count_filter chosen

/-- As long as no edit drops an interval, it is there as often as it was before and was added, by
induction on the edits. -/
theorem count_edits_of_keep {es : List Edit} (t : Timeline) (keep : ∀ e ∈ es, ¬e.Drops i) :
    (t.edits es).count i = t.count i + (es.flatMap Edit.added).count i := by
  induction es generalizing t with
  | nil => rfl
  | cons e rest ih =>
    obtain ⟨first, others⟩ := List.forall_mem_cons.1 keep
    calc ((t.edit e).edits rest).count i
        = (t.edit e).count i + (rest.flatMap Edit.added).count i := ih (t.edit e) others
      _ = t.count i + e.added.count i + (rest.flatMap Edit.added).count i := by
          rw [count_edit_of_keeps t first]
      _ = t.count i + ((e :: rest).flatMap Edit.added).count i := by
          rw [List.flatMap_cons, List.count_append, Nat.add_assoc]

/-- Since the last edit that dropped an interval, it is there as often as it was added, whatever
came before. -/
theorem count_edits_since {e : Edit} {later : List Edit} (t : Timeline) (earlier : List Edit)
    (drops : e.Drops i) (keep : ∀ e' ∈ later, ¬e'.Drops i) :
    (t.edits (earlier ++ e :: later)).count i = ((e :: later).flatMap Edit.added).count i := by
  unfold edits
  rw [List.foldl_append, List.foldl_cons]
  calc (((t.edits earlier).edit e).edits later).count i
      = ((t.edits earlier).edit e).count i + (later.flatMap Edit.added).count i :=
        count_edits_of_keep _ keep
    _ = e.added.count i + (later.flatMap Edit.added).count i := by
        rw [count_edit_of_drops _ drops]
    _ = ((e :: later).flatMap Edit.added).count i := by
        rw [List.flatMap_cons, List.count_append]

/-! ## What is certain of timelines -/

/-- What is certain of two timelines `t` and `u`, a condition `p`, and any edits of `t`. -/
structure Laws (t u : Timeline) (p : Interval → Bool) : Prop where
  perm : t.sort.intervals.Perm t.intervals
  stable : StableSort t t.sort
  sort_sort : t.sort.sort = t.sort
  filter_sort : t.sort.filter p = (t.filter p).sort
  filter_append : (t ++ u).filter p = t.filter p ++ u.filter p
  /-- In particular the condition may be to belong to a category, -/
  ofCategory : ∀ category, t.sort.ofCategory category = (t.ofCategory category).sort ∧
    (t ++ u).ofCategory category = t.ofCategory category ++ u.ofCategory category
  /-- or to hold at an instant. -/
  holdingAt : ∀ instant, t.sort.holdingAt instant = (t.holdingAt instant).sort ∧
    (t ++ u).holdingAt instant = t.holdingAt instant ++ u.holdingAt instant
  /-- A timeline may be sorted before it is extended. -/
  sort_append_sort : (t.sort ++ u).sort = (t ++ u).sort
  /-- An interval is there as often as it was added since the last edit that dropped it. -/
  since : ∀ (earlier : List Edit) (e : Edit) (later : List Edit) (i : Interval), e.Drops i →
    (∀ e' ∈ later, ¬e'.Drops i) →
      (t.edits (earlier ++ e :: later)).count i = ((e :: later).flatMap Edit.added).count i
  /-- If no edit dropped it, it is there as often as it was at first and was added. -/
  kept : ∀ (es : List Edit) (i : Interval), (∀ e ∈ es, ¬e.Drops i) →
    (t.edits es).count i = t.count i + (es.flatMap Edit.added).count i

/-- The laws of timelines hold for all timelines, conditions and edits: a caller may sort, extend
and select in any order that suits it. -/
theorem stream_laws (t u : Timeline) (p : Interval → Bool) : Laws t u p where
  perm := t.sort_perm
  stable := t.stableSort_sort
  sort_sort := t.sort_sort
  filter_sort := t.filter_sort p
  filter_append := t.filter_append u p
  ofCategory := fun _ => ⟨t.filter_sort _, t.filter_append u _⟩
  holdingAt := fun _ => ⟨t.filter_sort _, t.filter_append u _⟩
  sort_append_sort := t.sort_append_sort u
  since := fun earlier _ _ _ drops keep => count_edits_since t earlier drops keep
  kept := fun _ _ keep => count_edits_of_keep t keep

/-- Of two intervals with the same start, one is added before the others are replaced, in place of
them and once more later, and the other one is left out in between. -/
theorem stream_laws_of_replacement :
    let a : Interval := .opened ⟨7⟩ "c" "s" "a"
    let b : Interval := .opened ⟨7⟩ "c" "s" "b"
    let others : Interval → Bool := fun i => i.message != "b"
    let t := empty.edits
      [.push a, .extend ⟨[a, b]⟩, .replace [b, a], .sort, .filter others, .push a]
    t.count a = 2 ∧ t.count b = 0 := by
  intro a b others t
  have laws := stream_laws empty empty others
  constructor
  · -- The replacement is the last edit that dropped the first interval,
    exact laws.since [.push a, .extend ⟨[a, b]⟩] (.replace [b, a])
      [.sort, .filter others, .push a] a trivial
      (by simp [Edit.Drops, others, a, Interval.opened])
  · -- and the filter is the last one that dropped the second.
    exact laws.since [.push a, .extend ⟨[a, b]⟩, .replace [b, a], .sort] (.filter others)
      [.push a] b rfl (by simp [Edit.Drops])

end Vigil.Timeline
