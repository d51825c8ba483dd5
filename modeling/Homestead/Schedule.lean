/-
  Homestead.Schedule
  ──────────────────
  **WHEN THE NEXT SAVE IS DUE.**

  Times are milliseconds after one fixed instant.  A schedule with interval
  zero is off and never due; otherwise a save is due one interval after the
  start or after the last save that was marked.
-/

namespace Homestead

/-- The rhythm of regular saves. -/
structure Schedule where
  /-- Milliseconds between saves; none when saving is off. -/
  interval : Option Nat
  /-- When the next save is due. -/
  nextDue : Option Nat
  deriving DecidableEq

namespace Schedule

/-- The schedule that starts at time `now` with an interval of so many seconds. -/
def start (seconds now : Nat) : Schedule :=
  let interval := if seconds = 0 then none else some (seconds * 1000)
  { interval, nextDue := interval.map (now + ·) }

/-- Whether a save is due. -/
def isDue (s : Schedule) (now : Nat) : Bool :=
  s.nextDue.any (· ≤ now)

/-- Milliseconds left until the next save, zero when it is overdue. -/
def untilDue (s : Schedule) (now : Nat) : Option Nat :=
  s.nextDue.map (· - now)

/-- Counts the next interval from now. -/
def markSaved (s : Schedule) (now : Nat) : Schedule :=
  { s with nextDue := s.interval.map (now + ·) }

/-- The interval in whole seconds. -/
def intervalSeconds (s : Schedule) : Option Nat :=
  s.interval.map (· / 1000)

end Schedule

end Homestead
