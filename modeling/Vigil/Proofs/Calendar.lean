import Mathlib.Algebra.GroupWithZero.Nat
import Vigil.Time.Calendar

/-!
# Later days have later dates

The years follow each other without a gap, and every day lies in the year of its date. Within a year
the months do the same. So the dates stand in the order of the days, and no two days have the same
date, in the years before the year one and in leap years as in all others.

The module introduces:

* `Date.Before`, the order of dates by year, month and day of the month;
* `Date.Proper`, the bounds of a month and of a day of the month.
-/

namespace Vigil.Calendar

/-! ## Years -/

theorem daysBeforeYear_succ (year : Int) :
    daysBeforeYear (year + 1) = daysBeforeYear year + (monthLengths (isLeap year)).sum := by
  -- Only the length of February depends on the year.
  have total : (monthLengths (isLeap year)).sum = 365 + if isLeap year then 1 else 0 := by
    cases isLeap year <;> rfl
  rw [total]
  simp only [daysBeforeYear, isLeap, Bool.and_eq_true, Bool.or_eq_true, beq_iff_eq, bne_iff_ne]
  split <;> omega

theorem daysBeforeYear_mono {year later : Int} (h : year ≤ later) :
    daysBeforeYear year ≤ daysBeforeYear later := by
  unfold daysBeforeYear
  omega

/-- The day lies in the year `yearOf day`: not before the start of it, and before the start of the
next one. -/
theorem day_in_year (day : Int) :
    daysBeforeYear (yearOf day) ≤ day ∧ day < daysBeforeYear (yearOf day + 1) := by
  -- The quotient misses the year by one at most, and is set right by comparing.
  have notEarlier : daysBeforeYear (day * 400 / 146097 - 1) ≤ day := by
    unfold daysBeforeYear
    omega
  have notLater : day < daysBeforeYear (day * 400 / 146097 + 1 + 1) := by
    unfold daysBeforeYear
    omega
  unfold yearOf
  dsimp only
  split
  · next before =>
    rw [Int.sub_add_cancel]
    exact ⟨notEarlier, before⟩
  · next notBefore =>
    split
    · next after => exact ⟨after, notLater⟩
    · next notAfter => exact ⟨Int.not_lt.1 notBefore, Int.not_le.1 notAfter⟩

theorem yearOf_mono {day later : Int} (h : day ≤ later) : yearOf day ≤ yearOf later := by
  refine Int.not_lt.1 fun earlier => ?_
  have ended := daysBeforeYear_mono (Int.add_one_le_iff.2 earlier)
  have begun := (day_in_year day).1
  have going := (day_in_year later).2
  omega

/-- The days since the start of the year of `day`, from zero on. -/
def dayOfYear (day : Int) : Nat := (day - daysBeforeYear (yearOf day)).toNat

theorem dayOfYear_lt (day : Int) :
    dayOfYear day < (monthLengths (isLeap (yearOf day))).sum := by
  obtain ⟨begun, going⟩ := day_in_year day
  rw [daysBeforeYear_succ] at going
  unfold dayOfYear
  omega

theorem dayOfYear_lt_dayOfYear {day later : Int} (h : day < later)
    (same : yearOf day = yearOf later) : dayOfYear day < dayOfYear later := by
  have begun := (day_in_year day).1
  unfold dayOfYear
  rw [← same]
  omega

/-! ## Months -/

section
variable {lengths : List Nat} {days later : Nat}

/-- The month that `monthAndDay` finds comes from the list, and the day of the month is none that no
month has. -/
theorem monthAndDay_bounds (month : Nat) (inside : days < lengths.sum)
    (short : ∀ length ∈ lengths, length ≤ 31) :
    month ≤ (monthAndDay lengths month days).1 ∧
      (monthAndDay lengths month days).1 < month + lengths.length ∧
      1 ≤ (monthAndDay lengths month days).2 ∧ (monthAndDay lengths month days).2 ≤ 31 := by
  induction lengths generalizing month days with
  | nil => cases inside
  | cons length rest ih =>
    obtain ⟨first, others⟩ := List.forall_mem_cons.1 short
    rw [List.sum_cons] at inside
    unfold monthAndDay
    rw [List.length_cons]
    split
    · next here =>
      dsimp only
      omega
    · next past =>
      -- The day lies behind this month, among the others.
      have behind : days - length < rest.sum := by omega
      have found := ih (month + 1) behind others
      omega

/-- A later day of the year lies in a later month, or in the same month on a later day, by induction
on the months. -/
theorem monthAndDay_lt (month : Nat) (h : days < later) (inside : later < lengths.sum)
    (short : ∀ length ∈ lengths, length ≤ 31) :
    (monthAndDay lengths month days).1 < (monthAndDay lengths month later).1 ∨
      (monthAndDay lengths month days).1 = (monthAndDay lengths month later).1 ∧
        (monthAndDay lengths month days).2 < (monthAndDay lengths month later).2 := by
  induction lengths generalizing month days later with
  | nil => cases inside
  | cons length rest ih =>
    obtain ⟨-, others⟩ := List.forall_mem_cons.1 short
    rw [List.sum_cons] at inside
    unfold monthAndDay
    -- The first month has both days, the earlier one, or neither of them.
    by_cases here : days < length
    · by_cases both : later < length
      · rw [if_pos here, if_pos both]
        exact .inr ⟨rfl, Nat.succ_lt_succ h⟩
      · rw [if_pos here, if_neg both]
        exact .inl (monthAndDay_bounds (month + 1) (by omega) others).1
    · rw [if_neg here, if_neg (by omega)]
      exact ih (month + 1) (by omega) (by omega) others

end

theorem monthLengths_le (leap : Bool) : ∀ length ∈ monthLengths leap, length ≤ 31 := by
  cases leap <;> decide

/-! ## Dates -/

/-- The month and the day of the month have at most two digits, and neither is zero, so that padding
gives them two digits each. -/
structure Date.Proper (d : Date) : Prop where
  month : 1 ≤ d.month ∧ d.month ≤ 12
  day : 1 ≤ d.day ∧ d.day ≤ 31

/-- The date `d` comes before `later`, by year, then month, then day. -/
def Date.Before (d later : Date) : Prop :=
  d.year < later.year ∨ d.year = later.year ∧
    (d.month < later.month ∨ d.month = later.month ∧ d.day < later.day)

theorem dateOf_eq (day : Int) : dateOf day =
    ⟨yearOf (day + epochDay),
      (monthAndDay (monthLengths (isLeap (yearOf (day + epochDay)))) 1
        (dayOfYear (day + epochDay))).1,
      (monthAndDay (monthLengths (isLeap (yearOf (day + epochDay)))) 1
        (dayOfYear (day + epochDay))).2⟩ := rfl

theorem proper_dateOf (day : Int) : (dateOf day).Proper := by
  obtain ⟨first, last, days⟩ := monthAndDay_bounds 1 (dayOfYear_lt (day + epochDay))
    (monthLengths_le (isLeap (yearOf (day + epochDay))))
  rw [dateOf_eq]
  refine ⟨⟨first, ?_⟩, days⟩
  exact Nat.lt_succ_iff.1 last

/-- A later day has a later date: the calendar keeps the order of days across all years and leap
years. -/
theorem before_dateOf {day later : Int} (h : day < later) :
    (dateOf day).Before (dateOf later) := by
  rw [dateOf_eq, dateOf_eq]
  rcases Int.lt_or_eq_of_le (yearOf_mono (Int.le_of_lt (Int.add_lt_add_right h epochDay)))
    with year | year
  · exact .inl year
  · -- In one year both days are counted through the same months.
    refine .inr ⟨year, ?_⟩
    have days := dayOfYear_lt_dayOfYear (Int.add_lt_add_right h epochDay) year
    dsimp only
    rw [year]
    exact monthAndDay_lt 1 days (dayOfYear_lt (later + epochDay)) (monthLengths_le _)

end Vigil.Calendar
