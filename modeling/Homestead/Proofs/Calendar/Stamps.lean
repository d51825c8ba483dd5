/-
  Homestead.Proofs.Calendar.Stamps
  ────────────────────────────────
  **WHAT A STAMP SAYS.**

  The date of a number of seconds is the only one in the calendar with so
  many seconds before it.  Its stamp writes every part but the year with
  two digits, so the parts can be told apart again, whatever the year is:
  two stamps are the same only if the seconds are.

  Main results:
    * `Civil.isDateOf_iff` — which date belongs to a number of seconds;
    * `Civil.Proper.stamp_eq_iff` — what a stamp tells of its date;
    * `Civil.ofSeconds_exact` — dates, stamps and their order.
-/
import Homestead.Proofs.Calendar.Dates

namespace Homestead.Calendar

/-! ## §1. Digits. -/

/-- The two last digits of a number. -/
def twoDigits (n : Nat) : List Char :=
  [(n / 10).digitChar, (n % 10).digitChar]

/-- A number below 100 is written with two digits. -/
theorem toList_twoPlaces {n : Nat} (h : n < 100) : (twoPlaces '0' n).toList = twoDigits n := by
  unfold twoPlaces twoDigits
  rw [Nat.toString_eq_repr]
  -- The library writes a number below 10 with one digit; the stamp puts a zero in front.
  by_cases hOne : n < 10
  · rw [if_pos hOne, Nat.repr_of_lt hOne, String.toList_append, String.toList_singleton,
      String.toList_singleton, Nat.div_eq_of_lt hOne, Nat.mod_eq_of_lt hOne]
    rfl
  · rw [if_neg hOne, Nat.repr_of_ge (Nat.not_lt.1 hOne), String.toList_append,
      Nat.repr_of_lt (show n / 10 < 10 by omega), String.toList_singleton,
      String.toList_singleton]
    rfl

/-- Two digits tell a number below 100. -/
theorem twoDigits_inj {m n : Nat} (hm : m < 100) (hn : n < 100)
    (h : twoDigits m = twoDigits n) : m = n := by
  have hValue : ∀ k, k < 100 → Nat.ofDigitChars 10 (twoDigits k) 0 = k := by
    intro k hk
    rw [twoDigits, Nat.ofDigitChars_cons_digitChar_of_lt_ten (by omega),
      Nat.ofDigitChars_cons_digitChar_of_lt_ten (by omega), Nat.ofDigitChars_nil]
    omega
  rw [← hValue m hm, h, hValue n hn]

/-- A number is told by all of its digits. -/
theorem eq_of_toString_eq {m n : Nat} (h : toString m = toString n) : m = n := by
  rw [Nat.toString_eq_ofList_toDigits, Nat.toString_eq_ofList_toDigits, String.ofList_inj] at h
  rw [← Nat.ofDigitChars_ten_toDigits (n := m), h, Nat.ofDigitChars_ten_toDigits]

/-! ## §2. Stamps. -/

namespace Civil

variable {t u : Civil}

/-- An hour of a date is below 24. -/
theorem Proper.hour_lt (h : t.Proper) : t.hour < 24 := by
  have := h.secondOfDay_lt
  unfold hour secondsPerDay at *
  omega

theorem minute_lt (t : Civil) : t.minute < 60 := by
  unfold minute
  omega

theorem second_lt (t : Civil) : t.second < 60 := by
  unfold second
  omega

/-- A day of a date is below 32. -/
theorem Proper.day_lt (h : t.Proper) : t.day < 32 := by
  have hLength : monthLength t.year t.month ≤ 31 := by
    unfold monthLength
    repeat' split
    all_goals omega
  have := h.day_le
  omega

/-- The places of a stamp. -/
theorem Proper.toList_stamp (h : t.Proper) :
    t.stamp.toList = twoDigits t.day ++ '.' :: (twoDigits (t.month + 1) ++ '.' ::
      ((toString t.year).toList ++ ' ' :: (twoDigits t.hour ++ ':' :: (twoDigits t.minute ++ ':' ::
        twoDigits t.second)))) := by
  have hDay := h.day_lt
  have hMonth := h.month_lt
  have hHour := h.hour_lt
  have hMinute := t.minute_lt
  have hSecond := t.second_lt
  -- Each part is below 100, so two places are enough for it.
  rw [← toList_twoPlaces (show t.day < 100 by omega),
    ← toList_twoPlaces (show t.month + 1 < 100 by omega),
    ← toList_twoPlaces (show t.hour < 100 by omega),
    ← toList_twoPlaces (show t.minute < 100 by omega),
    ← toList_twoPlaces (show t.second < 100 by omega)]
  unfold stamp clock
  simp only [String.toList_append, List.append_assoc]
  rfl

/-- **A stamp tells all parts of its date.** -/
theorem Proper.stamp_eq_iff (ht : t.Proper) (hu : u.Proper) :
    t.stamp = u.stamp ↔ t.parts = u.parts := by
  constructor
  · intro h
    have hPlaces := congrArg String.toList h
    rw [ht.toList_stamp, hu.toList_stamp] at hPlaces
    -- What stands before the year and what stands behind it have one length in all stamps.
    obtain ⟨hDay, hRest⟩ := List.append_inj hPlaces rfl
    obtain ⟨hMonth, hRest⟩ := List.append_inj (List.cons.inj hRest).2 rfl
    obtain ⟨hYear, hTime⟩ := List.append_inj' (List.cons.inj hRest).2 rfl
    obtain ⟨hHour, hRest⟩ := List.append_inj (List.cons.inj hTime).2 rfl
    obtain ⟨hMinute, hRest⟩ := List.append_inj (List.cons.inj hRest).2 rfl
    have hSecond := (List.cons.inj hRest).2
    have hMonths := twoDigits_inj (by have := ht.month_lt; omega) (by have := hu.month_lt; omega)
      hMonth
    unfold parts
    rw [eq_of_toString_eq (String.toList_inj.1 hYear), Nat.succ.inj hMonths,
      twoDigits_inj (by have := ht.day_lt; omega) (by have := hu.day_lt; omega) hDay,
      twoDigits_inj (by have := ht.hour_lt; omega) (by have := hu.hour_lt; omega) hHour,
      twoDigits_inj (by have := t.minute_lt; omega) (by have := u.minute_lt; omega) hMinute,
      twoDigits_inj (by have := t.second_lt; omega) (by have := u.second_lt; omega) hSecond]
  · intro h
    simp only [parts, List.cons.injEq] at h
    obtain ⟨hYear, hMonth, hDay, hHour, hMinute, hSecond, _⟩ := h
    refine String.toList_inj.1 ?_
    rw [ht.toList_stamp, hu.toList_stamp, hYear, hMonth, hDay, hHour, hMinute, hSecond]

/-! ## §3. The date of a number of seconds. -/

/-- The date is that of `n` seconds after the start of 1970. -/
structure IsDateOf (t : Civil) (n : Nat) : Prop where
  /-- Counting starts in 1970. -/
  year_ge : 1970 ≤ t.year
  /-- There are twelve months. -/
  month_lt : t.month < 12
  /-- Days are counted from 1. -/
  day_pos : 1 ≤ t.day
  /-- The month has the day. -/
  day_le : t.day ≤ monthLength t.year t.month
  /-- The years, the months and the days before the date are the days that have passed. -/
  passed : ∑ y ∈ Finset.Ico 1970 t.year, (if IsLeapYear y then 366 else 365)
    + ((monthTable t.year).take t.month).sum + (t.day - 1) = n / 86400
  /-- The time of day is what is left of them. -/
  secondOfDay_eq : t.secondOfDay = n % 86400
  /-- There are twenty-four hours. -/
  hour_lt : t.hour < 24
  /-- There are sixty minutes. -/
  minute_lt : t.minute < 60
  /-- There are sixty seconds. -/
  second_lt : t.second < 60
  /-- Hours, minutes and seconds make up the time of day. -/
  time_eq : t.hour * 3600 + t.minute * 60 + t.second = t.secondOfDay
  /-- The first day was a Thursday. -/
  weekday_eq : t.weekday = (n / 86400 + 4) % 7

/-- The days of a date are those of the years before, of the months before and of the month. -/
theorem Proper.days_eq (h : t.Proper) :
    t.days = ∑ y ∈ Finset.Ico 1970 t.year, (if IsLeapYear y then 366 else 365)
      + ((monthTable t.year).take t.month).sum + (t.day - 1) := by
  rw [days, daysOfYear, sum_take_monthTable _ h.month_lt.le, Nat.add_assoc]
  simp only [yearLength_eq]

/-- The date of a second is proper. -/
theorem IsDateOf.proper {n : Nat} (h : t.IsDateOf n) : t.Proper where
  year_ge := h.year_ge
  month_lt := h.month_lt
  day_pos := h.day_pos
  day_le := h.day_le
  secondOfDay_lt := h.secondOfDay_eq ▸ Nat.mod_lt n (by decide)

/-- The date of a second counts that many seconds. -/
theorem IsDateOf.seconds_eq {n : Nat} (h : t.IsDateOf n) : t.seconds = n := by
  rw [seconds, h.proper.days_eq, h.passed, h.secondOfDay_eq]
  exact Nat.div_add_mod' n 86400

/-- The date that is computed is the date of the second. -/
theorem isDateOf_ofSeconds (s : Int) : (ofSeconds s).IsDateOf s.toNat :=
  have hProper := proper_ofSeconds s
  { year_ge := hProper.year_ge
    month_lt := hProper.month_lt
    day_pos := hProper.day_pos
    day_le := hProper.day_le
    passed := hProper.days_eq.symm.trans (days_ofSeconds s)
    secondOfDay_eq := rfl
    hour_lt := hProper.hour_lt
    minute_lt := minute_lt _
    second_lt := second_lt _
    time_eq := secondOfDay_eq _
    weekday_eq := rfl }

/-- **A number of seconds has one date.** -/
theorem isDateOf_iff (s : Int) : t.IsDateOf s.toNat ↔ t = ofSeconds s := by
  constructor
  · intro h
    have hOwn := isDateOf_ofSeconds s
    -- Same second, so same parts; the clock and the day of the week follow from the second.
    have hParts := (h.proper.parts_eq_iff hOwn.proper).2 (h.seconds_eq.trans hOwn.seconds_eq.symm)
    simp only [parts, List.cons.injEq] at hParts
    obtain ⟨hYear, hMonth, hDay, _⟩ := hParts
    have hTime := h.secondOfDay_eq.trans hOwn.secondOfDay_eq.symm
    have hWeekday := h.weekday_eq.trans hOwn.weekday_eq.symm
    cases t
    simp_all only
  · rintro rfl
    exact isDateOf_ofSeconds s

/-- **Dates are exact.**  Of all dates, the one that a number of seconds is broken down to is the
only one that is in the calendar and has just so many seconds before it, where times before 1970
count as its start.  So stamps are the same for the same time only, and dates come in the order of
times. -/
theorem ofSeconds_exact (s : Int) :
    (∀ t : Civil, t.IsDateOf s.toNat ↔ t = ofSeconds s)
      ∧ (∀ s' : Int, (ofSeconds s).stamp = (ofSeconds s').stamp ↔ s.toNat = s'.toNat)
      ∧ ∀ s' : Int, (ofSeconds s).parts < (ofSeconds s').parts ↔ s.toNat < s'.toNat := by
  refine ⟨fun _ => isDateOf_iff s, ?_, ?_⟩
  · intro s'
    have hs := proper_ofSeconds s
    have hs' := proper_ofSeconds s'
    rw [hs.stamp_eq_iff hs', hs.parts_eq_iff hs', seconds_ofSeconds, seconds_ofSeconds]
  · intro s'
    rw [(proper_ofSeconds s).parts_lt_iff (proper_ofSeconds s'), seconds_ofSeconds,
      seconds_ofSeconds]

/-- The last second of a leap day that ends no century. -/
example : (ofSeconds 1709251199).stamp = "29.02.2024 23:59:59" := by decide +kernel

end Civil

end Homestead.Calendar
