/-
  Homestead.Text.Numeral
  ──────────────────────
  **NUMERALS IN SETTINGS AND ARGUMENTS.**

  A numeral is a run of at least one digit of its base.  A bounded numeral
  may carry one leading plus sign and must stay below its bound.
-/

namespace Homestead.Text

/-- The value of a digit in bases up to sixteen. -/
def digitValue? (base : Nat) (c : Char) : Option Nat :=
  let value? :=
    if '0' ≤ c && c ≤ '9' then some (c.toNat - '0'.toNat)
    else if 'a' ≤ c && c ≤ 'f' then some (c.toNat - 'a'.toNat + 10)
    else if 'A' ≤ c && c ≤ 'F' then some (c.toNat - 'A'.toNat + 10)
    else none
  value?.filter (· < base)

/-- Reads digits onto the value read so far. -/
def readDigits? (base : Nat) : Nat → List Char → Option Nat
  | value, [] => some value
  | value, c :: rest => (digitValue? base c).bind fun d => readDigits? base (base * value + d) rest

/-- The value of a non-empty run of digits. -/
def numeral? (base : Nat) : List Char → Option Nat
  | [] => none
  | cs => readDigits? base 0 cs

/-- The value of a decimal numeral below `bound`, with at most one leading plus sign. -/
def boundedNumeral? (bound : Nat) (s : String) : Option Nat :=
  let digits := match s.toList with
    | '+' :: rest => rest
    | cs => cs
  (numeral? 10 digits).filter (· < bound)

end Homestead.Text
