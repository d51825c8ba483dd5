/-
  Homestead.Calendar
  ──────────────────
  **A COUNT OF SECONDS AS A DATE.**

  Journal lines carry the date of a number of seconds since the first of
  January 1970, a Thursday.  Whole years are taken off first, then whole
  months; what is left is the day.  Times before 1970 count as its start.
-/

namespace Homestead.Calendar

/-! ## §1. Lengths. -/

/-- The Gregorian leap rule. -/
def isLeap (year : Nat) : Bool :=
  (year % 4 == 0 && year % 100 != 0) || year % 400 == 0

/-- The number of days of a year. -/
def yearLength (year : Nat) : Nat :=
  if isLeap year then 366 else 365

/-- The number of days of a month, counted from 0. -/
def monthLength (year month : Nat) : Nat :=
  match month with
  | 1 => if isLeap year then 29 else 28
  | 3 | 5 | 8 | 10 => 30
  | _ => 31

theorem yearLength_pos (year : Nat) : 0 < yearLength year := by
  unfold yearLength; split <;> omega

theorem monthLength_pos (year month : Nat) : 0 < monthLength year month := by
  unfold monthLength; repeat' split
  all_goals omega

/-! ## §2. Breaking a count of days down. -/

/-- Takes whole years off a count of days: the year reached and the days left of it. -/
def takeYears (year days : Nat) : Nat × Nat :=
  if days < yearLength year then (year, days)
  else takeYears (year + 1) (days - yearLength year)
termination_by days
decreasing_by have := yearLength_pos year; omega

/-- Takes whole months off a count of days: the month reached and the days left of it. -/
def takeMonths (year month days : Nat) : Nat × Nat :=
  if days < monthLength year month then (month, days)
  else takeMonths year (month + 1) (days - monthLength year month)
termination_by days
decreasing_by have := monthLength_pos year month; omega

/-- A moment as date and time of day. -/
structure Civil where
  /-- The year, 1970 or later. -/
  year : Nat
  /-- The month, 0 to 11. -/
  month : Nat
  /-- The day of the month, from 1. -/
  day : Nat
  /-- The day of the week, 0 for Sunday. -/
  weekday : Nat
  /-- Seconds since midnight. -/
  secondOfDay : Nat
  deriving DecidableEq

/-- The number of seconds of a day. -/
def secondsPerDay : Nat := 86400

/-- The date of a number of seconds since the start of 1970. -/
def Civil.ofSeconds (seconds : Int) : Civil :=
  let n := seconds.toNat
  let days := n / secondsPerDay
  let (year, dayOfYear) := takeYears 1970 days
  let (month, dayOfMonth) := takeMonths year 0 dayOfYear
  { year, month, day := dayOfMonth + 1, weekday := (days + 4) % 7
    secondOfDay := n % secondsPerDay }

/-! ## §3. The two written forms. -/

/-- A number filled up with the character `fill` to two places. -/
def twoPlaces (fill : Char) (n : Nat) : String :=
  if n < 10 then String.singleton fill ++ toString n else toString n

/-- The time of day as `hh:mm:ss`. -/
def Civil.clock (t : Civil) : String :=
  let place := twoPlaces '0'
  place (t.secondOfDay / 3600) ++ ":" ++ place (t.secondOfDay % 3600 / 60) ++ ":"
    ++ place (t.secondOfDay % 60)

/-- The form on journal lines: `dd.mm.yyyy hh:mm:ss`. -/
def Civil.stamp (t : Civil) : String :=
  twoPlaces '0' t.day ++ "." ++ twoPlaces '0' (t.month + 1) ++ "." ++ toString t.year
    ++ " " ++ t.clock

/-- Month names, from January. -/
def monthNames : Array String :=
  #["Jan", "Feb", "Mar", "Apr", "May", "Jun", "Jul", "Aug", "Sep", "Oct", "Nov", "Dec"]

/-- Names of the days of the week, from Sunday. -/
def weekdayNames : Array String :=
  #["Sun", "Mon", "Tue", "Wed", "Thu", "Fri", "Sat"]

/-- The form at the head of a journal: weekday, month, day, time of day and year. -/
def Civil.heading (t : Civil) : String :=
  weekdayNames.getD t.weekday "" ++ " " ++ monthNames.getD t.month "" ++ " "
    ++ twoPlaces ' ' t.day ++ " " ++ t.clock ++ " " ++ toString t.year

end Homestead.Calendar
