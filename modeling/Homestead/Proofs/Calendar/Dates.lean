/-
  Homestead.Proofs.Calendar.Dates
  ───────────────────────────────
  **A DATE COUNTS THE DAYS BEFORE IT.**

  Whole years are taken off a count of days, and whole months off what is
  left.  Both go on until the next one no longer fits, so what has been
  taken off and what is left are the count again; and since the months of a
  year are as long as the year, no month after December is reached.

  So a date gives back the seconds that it was made from.  Dates are
  therefore different for different seconds, and they come in the order of
  the seconds.

  Main results:
    * `takenOff_takeYears`, `takenOff_takeMonths` — what the two loops do;
    * `proper_ofSeconds`, `seconds_ofSeconds` — the date of a number of
      seconds;
    * `Civil.Proper.parts_lt_iff` — the order of dates.
-/
import Homestead.Calendar
import Mathlib.Algebra.BigOperators.Intervals
import Mathlib.Algebra.Order.BigOperators.Group.Finset
import Mathlib.Data.List.Lex
import Mathlib.Order.Interval.Finset.Nat
import Mathlib.Tactic.IntervalCases

namespace Homestead.Calendar

/-! ## §1. The Gregorian calendar. -/

/-- Every fourth year is a leap year, but of those that end a century every fourth only. -/
def IsLeapYear (year : Nat) : Prop :=
  4 ∣ year ∧ (100 ∣ year → 400 ∣ year)

instance (year : Nat) : Decidable (IsLeapYear year) :=
  inferInstanceAs (Decidable (_ ∧ _))

/-- The days of the twelve months of a year. -/
def monthTable (year : Nat) : List Nat :=
  [31, if IsLeapYear year then 29 else 28, 31, 30, 31, 30, 31, 31, 30, 31, 30, 31]

/-- The test of the program is the rule of leap years. -/
theorem isLeap_iff (year : Nat) : isLeap year = true ↔ IsLeapYear year := by
  unfold isLeap IsLeapYear
  simp only [Bool.or_eq_true, Bool.and_eq_true, beq_iff_eq, bne_iff_ne]
  omega

/-- A leap year has one day more. -/
theorem yearLength_eq (year : Nat) :
    yearLength year = if IsLeapYear year then 366 else 365 := by
  unfold yearLength
  simp only [isLeap_iff]

/-- February has one day more in a leap year. -/
theorem monthLength_february (year : Nat) :
    monthLength year 1 = if IsLeapYear year then 29 else 28 := by
  show (if isLeap year then 29 else 28) = _
  simp only [isLeap_iff]

/-- The months before a month have the days that the table says. -/
theorem sum_take_monthTable (year : Nat) {month : Nat} (h : month ≤ 12) :
    ((monthTable year).take month).sum = ∑ m ∈ Finset.range month, monthLength year m := by
  induction month with
  | zero => rfl
  | succ month ih =>
    have hLess : month < 12 := h
    have hEntry : (monthTable year)[month]? = some (monthLength year month) := by
      interval_cases month
      case «1» => exact congrArg some (monthLength_february year).symm
      all_goals rfl
    rw [List.take_add_one, hEntry, List.sum_append, ih (by omega), Finset.sum_range_succ]
    rfl

/-- The months of a year are as long as the year. -/
theorem sum_monthLength (year : Nat) :
    ∑ m ∈ Finset.range 12, monthLength year m = yearLength year := by
  rw [← sum_take_monthTable year (Nat.le_refl 12), yearLength_eq]
  unfold monthTable
  split_ifs <;> rfl

/-! ## §2. Taking off what fits. -/

/-- From `start` on, whole spans have been taken off `days` until the next one, `stop`, did not fit
any more; `rest` is left of it. -/
structure TakenOff (length : Nat → Nat) (start days stop rest : Nat) : Prop where
  /-- Spans are taken in order. -/
  start_le : start ≤ stop
  /-- Nothing gets lost. -/
  total : ∑ i ∈ Finset.Ico start stop, length i + rest = days
  /-- The next one does not fit. -/
  rest_lt : rest < length stop

/-- Nothing is taken off where the first stretch is not full. -/
theorem TakenOff.none {length : Nat → Nat} {start days : Nat} (h : days < length start) :
    TakenOff length start days start days where
  start_le := Nat.le_refl start
  total := by rw [Finset.Ico_self, Finset.sum_empty, Nat.zero_add]
  rest_lt := h

/-- One full stretch is taken off, and then the others. -/
theorem TakenOff.one {length : Nat → Nat} {start days stop rest : Nat}
    (hFits : length start ≤ days)
    (h : TakenOff length (start + 1) (days - length start) stop rest) :
    TakenOff length start days stop rest where
  start_le := by
    have := h.start_le
    omega
  total := by
    have hTotal := h.total
    rw [Finset.sum_eq_sum_Ico_succ_bot h.start_le]
    omega
  rest_lt := h.rest_lt

/-- The years that are taken off are full ones. -/
theorem takenOff_takeYears (year days : Nat) :
    TakenOff yearLength year days (takeYears year days).1 (takeYears year days).2 := by
  fun_induction takeYears year days with
  | case1 year days hLess => exact .none hLess
  | case2 year days hNot ih => exact .one (Nat.not_lt.1 hNot) ih

/-- The months that are taken off are full ones. -/
theorem takenOff_takeMonths (year month days : Nat) :
    TakenOff (monthLength year) month days (takeMonths year month days).1
      (takeMonths year month days).2 := by
  fun_induction takeMonths year month days with
  | case1 month days hLess => exact .none hLess
  | case2 month days hNot ih => exact .one (Nat.not_lt.1 hNot) ih

/-- **What is shorter than all spans up to an end does not reach the end.** -/
theorem TakenOff.stop_lt {length : Nat → Nat} {days stop rest last : Nat}
    (h : TakenOff length 0 days stop rest)
    (hDays : days < ∑ i ∈ Finset.range last, length i) : stop < last := by
  by_contra hNot
  have hAll : ∑ i ∈ Finset.range last, length i ≤ ∑ i ∈ Finset.Ico 0 stop, length i := by
    rw [← Finset.range_eq_Ico]
    exact Finset.sum_le_sum_of_subset (Finset.range_mono (Nat.not_lt.1 hNot))
  have hTotal := h.total
  omega

/-! ## §3. Dates. -/

namespace Civil

/-- The hour of the day. -/
def hour (t : Civil) : Nat :=
  t.secondOfDay / 3600

/-- The minute of the hour. -/
def minute (t : Civil) : Nat :=
  t.secondOfDay % 3600 / 60

/-- The second of the minute. -/
def second (t : Civil) : Nat :=
  t.secondOfDay % 60

/-- Hours, minutes and seconds make the second of the day. -/
theorem secondOfDay_eq (t : Civil) :
    t.hour * 3600 + t.minute * 60 + t.second = t.secondOfDay := by
  unfold hour minute second
  omega

/-- A day that there is in the calendar, from 1970 on, and a time that there is on a day. -/
structure Proper (t : Civil) : Prop where
  /-- Counting starts in 1970. -/
  year_ge : 1970 ≤ t.year
  /-- There are twelve months. -/
  month_lt : t.month < 12
  /-- Days are counted from 1. -/
  day_pos : 1 ≤ t.day
  /-- The month has the day. -/
  day_le : t.day ≤ monthLength t.year t.month
  /-- The day has the second. -/
  secondOfDay_lt : t.secondOfDay < secondsPerDay

/-- The number of days from the start of a year to the date. -/
def daysOfYear (t : Civil) : Nat :=
  ∑ m ∈ Finset.range t.month, monthLength t.year m + (t.day - 1)

/-- The number of days from the start of 1970 to the date. -/
def days (t : Civil) : Nat :=
  ∑ y ∈ Finset.Ico 1970 t.year, yearLength y + t.daysOfYear

/-- The number of seconds from the start of 1970 to the date. -/
def seconds (t : Civil) : Nat :=
  t.days * secondsPerDay + t.secondOfDay

/-- The years and months that are taken off a count of days. -/
theorem takenOff_ofSeconds (s : Int) :
    ∃ dayOfYear, TakenOff yearLength 1970 (s.toNat / secondsPerDay) (ofSeconds s).year dayOfYear
      ∧ TakenOff (monthLength (ofSeconds s).year) 0 dayOfYear (ofSeconds s).month
        ((ofSeconds s).day - 1) :=
  ⟨_, takenOff_takeYears 1970 (s.toNat / secondsPerDay), takenOff_takeMonths _ 0 _⟩

/-- **The date of a number of seconds is in the calendar.** -/
theorem proper_ofSeconds (s : Int) : (ofSeconds s).Proper := by
  obtain ⟨dayOfYear, hYears, hMonths⟩ := takenOff_ofSeconds s
  have hYear := hYears.rest_lt
  have hDay := hMonths.rest_lt
  have hPos : 1 ≤ (ofSeconds s).day := Nat.le_add_left 1 _
  exact {
    year_ge := hYears.start_le
    -- What is left of the count is less than a year, and so less than its twelve months.
    month_lt := hMonths.stop_lt (by rwa [sum_monthLength])
    day_pos := hPos
    day_le := by omega
    secondOfDay_lt := Nat.mod_lt _ (by decide) }

/-- The days of a date are the full days of its seconds. -/
theorem days_ofSeconds (s : Int) : (ofSeconds s).days = s.toNat / secondsPerDay := by
  obtain ⟨dayOfYear, hYears, hMonths⟩ := takenOff_ofSeconds s
  rw [days, daysOfYear, Finset.range_eq_Ico, hMonths.total, hYears.total]

/-- **A date gives back the seconds that it was made from.** -/
theorem seconds_ofSeconds (s : Int) : (ofSeconds s).seconds = s.toNat := by
  rw [seconds, days_ofSeconds]
  exact Nat.div_add_mod' s.toNat secondsPerDay

/-! ## §4. The order of dates. -/

/-- What a date is compared by: year, month, day and time of day. -/
def parts (t : Civil) : List Nat :=
  [t.year, t.month, t.day, t.hour, t.minute, t.second]

/-- A part decides if those before it are equal. -/
theorem parts_lt {t u : Civil} : t.parts < u.parts ↔
    t.year < u.year ∨ t.year = u.year ∧ (t.month < u.month ∨ t.month = u.month
      ∧ (t.day < u.day ∨ t.day = u.day ∧ t.secondOfDay < u.secondOfDay)) := by
  have hTime : (t.hour < u.hour ∨ t.hour = u.hour ∧ (t.minute < u.minute
      ∨ t.minute = u.minute ∧ t.second < u.second)) ↔ t.secondOfDay < u.secondOfDay := by
    unfold hour minute second
    omega
  simp only [parts, List.cons_lt_cons_iff, List.not_lt_nil, and_false, or_false, hTime]

variable {t u : Civil}

/-- A date comes before the end of its month. -/
theorem Proper.daysOfYear_lt_month (ht : t.Proper) :
    t.daysOfYear < ∑ m ∈ Finset.range (t.month + 1), monthLength t.year m := by
  have hDay := ht.day_le
  have hPos := ht.day_pos
  rw [daysOfYear, Finset.sum_range_succ]
  omega

/-- A date comes before the end of its year. -/
theorem Proper.daysOfYear_lt_year (ht : t.Proper) : t.daysOfYear < yearLength t.year := by
  rw [← sum_monthLength]
  exact ht.daysOfYear_lt_month.trans_le
    (Finset.sum_le_sum_of_subset (Finset.range_mono ht.month_lt))

/-- Between two dates of different years lies the end of the earlier year. -/
theorem days_lt_of_year (ht : t.Proper) (h : t.year < u.year) : t.days < u.days := by
  have hYears : ∑ y ∈ Finset.Ico 1970 (t.year + 1), yearLength y
      ≤ ∑ y ∈ Finset.Ico 1970 u.year, yearLength y :=
    Finset.sum_le_sum_of_subset (Finset.Ico_subset_Ico_right h)
  have hLess := ht.daysOfYear_lt_year
  rw [Finset.sum_Ico_succ_top ht.year_ge] at hYears
  unfold days
  omega

/-- Between two dates of different months of a year lies the end of the earlier month. -/
theorem days_lt_of_month (ht : t.Proper) (hYear : t.year = u.year) (h : t.month < u.month) :
    t.days < u.days := by
  have hMonths : ∑ m ∈ Finset.range (t.month + 1), monthLength t.year m
      ≤ ∑ m ∈ Finset.range u.month, monthLength t.year m :=
    Finset.sum_le_sum_of_subset (Finset.range_mono h)
  have hLess := ht.daysOfYear_lt_month
  unfold days
  rw [← hYear]
  have hLater : ∑ m ∈ Finset.range u.month, monthLength t.year m ≤ u.daysOfYear := by
    rw [daysOfYear, ← hYear]
    exact Nat.le_add_right _ _
  omega

/-- An earlier day is earlier in seconds, whatever the time of day. -/
theorem seconds_lt_of_days (ht : t.Proper) (h : t.days < u.days) : t.seconds < u.seconds := by
  have hTime := ht.secondOfDay_lt
  unfold seconds secondsPerDay at *
  omega

/-- A date that compares as earlier is earlier. -/
theorem Proper.seconds_lt (ht : t.Proper) (h : t.parts < u.parts) :
    t.seconds < u.seconds := by
  rcases parts_lt.1 h with hYear | ⟨hYear, hMonth | ⟨hMonth, hDay | ⟨hDay, hTime⟩⟩⟩
  · exact seconds_lt_of_days ht (days_lt_of_year ht hYear)
  · exact seconds_lt_of_days ht (days_lt_of_month ht hYear hMonth)
  · refine seconds_lt_of_days ht ?_
    have hPos := ht.day_pos
    unfold days daysOfYear
    rw [hYear, hMonth]
    omega
  · unfold seconds days daysOfYear
    rw [hYear, hMonth, hDay]
    omega

/-- Dates with the same parts have the same seconds. -/
theorem seconds_eq_of_parts (h : t.parts = u.parts) : t.seconds = u.seconds := by
  simp only [parts, List.cons.injEq] at h
  obtain ⟨hYear, hMonth, hDay, hHour, hMinute, hSecond, _⟩ := h
  have hTime := t.secondOfDay_eq
  rw [hHour, hMinute, hSecond, u.secondOfDay_eq] at hTime
  unfold seconds days daysOfYear
  rw [hYear, hMonth, hDay, hTime]

/-- **Dates come in the order of their seconds.** -/
theorem Proper.parts_lt_iff (ht : t.Proper) (hu : u.Proper) :
    t.parts < u.parts ↔ t.seconds < u.seconds := by
  refine ⟨ht.seconds_lt, ?_⟩
  intro hLess
  rcases lt_trichotomy t.parts u.parts with h | h | h
  · exact h
  · exact absurd (seconds_eq_of_parts h) hLess.ne
  · exact absurd (hu.seconds_lt h) hLess.asymm

/-- Dates are the same, part by part, if their seconds are. -/
theorem Proper.parts_eq_iff (ht : t.Proper) (hu : u.Proper) :
    t.parts = u.parts ↔ t.seconds = u.seconds := by
  refine ⟨seconds_eq_of_parts, ?_⟩
  intro hSame
  rcases lt_trichotomy t.parts u.parts with h | h | h
  · exact absurd hSame (ht.seconds_lt h).ne
  · exact h
  · exact absurd hSame (hu.seconds_lt h).ne'

end Civil

end Homestead.Calendar
