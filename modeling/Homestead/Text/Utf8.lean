/-
  Homestead.Text.Utf8
  ───────────────────
  **TEXT AS OCTETS, WITH A BUDGET ONE WAY AND REPLACEMENT THE OTHER.**

  Writing cuts a text to the longest run of whole characters that fits a
  budget of octets.  Reading never fails: every maximal part that cannot be
  continued to a well-formed character reads as one replacement character.

  Which second octet may follow a lead octet is the whole of the standard's
  table; third and fourth octets are plain continuations.
-/

namespace Homestead.Text

/-! ## §1. Writing. -/

/-- The octets of a run of characters. -/
def utf8Octets (cs : List Char) : List UInt8 :=
  cs.flatMap String.utf8EncodeChar

/-- The longest run of leading characters whose octets fit the budget. -/
def clip : Nat → List Char → List Char
  | _, [] => []
  | budget, c :: rest =>
    if c.utf8Size ≤ budget then c :: clip (budget - c.utf8Size) rest else []

/-! ## §2. Reading. -/

/-- The character that stands for an ill-formed part. -/
def replacement : Char := Char.ofNat 0xFFFD

/-- Whether an octet continues a character. -/
def isContinuation (b : UInt8) : Bool :=
  0x80 ≤ b && b ≤ 0xBF

/-- Whether an octet may stand second after the lead octet. -/
def isSecond (lead b : UInt8) : Bool :=
  if lead == 0xE0 then 0xA0 ≤ b && b ≤ 0xBF
  else if lead == 0xED then 0x80 ≤ b && b ≤ 0x9F
  else if lead == 0xF0 then 0x90 ≤ b && b ≤ 0xBF
  else if lead == 0xF4 then 0x80 ≤ b && b ≤ 0x8F
  else isContinuation b

/-- The six low bits of a continuation octet, as a number. -/
def lowBits (b : UInt8) : Nat := b.toNat % 64

/-- Reads the character that starts with the octet `lead`, or the replacement for the longest
ill-formed part, and gives the octets after it. -/
def readChar (lead : UInt8) (rest : List UInt8) : Char × List UInt8 :=
  if lead < 0x80 then (Char.ofNat lead.toNat, rest)
  else if 0xC2 ≤ lead && lead ≤ 0xDF then
    match rest with
    | b :: r =>
      if isContinuation b then (Char.ofNat (lead.toNat % 32 * 64 + lowBits b), r)
      else (replacement, rest)
    | [] => (replacement, rest)
  else if 0xE0 ≤ lead && lead ≤ 0xEF then
    match rest with
    | b :: r =>
      if isSecond lead b then
        match r with
        | c :: r' =>
          if isContinuation c then
            (Char.ofNat (lead.toNat % 16 * 4096 + lowBits b * 64 + lowBits c), r')
          else (replacement, r)
        | [] => (replacement, r)
      else (replacement, rest)
    | [] => (replacement, rest)
  else if 0xF0 ≤ lead && lead ≤ 0xF4 then
    match rest with
    | b :: r =>
      if isSecond lead b then
        match r with
        | c :: r' =>
          if isContinuation c then
            match r' with
            | d :: r'' =>
              if isContinuation d then
                (Char.ofNat
                  (lead.toNat % 8 * 262144 + lowBits b * 4096 + lowBits c * 64 + lowBits d), r'')
              else (replacement, r')
            | [] => (replacement, r')
          else (replacement, r)
        | [] => (replacement, r)
      else (replacement, rest)
    | [] => (replacement, rest)
  else (replacement, rest)

theorem readChar_length_le (lead : UInt8) (rest : List UInt8) :
    (readChar lead rest).2.length ≤ rest.length := by
  unfold readChar
  repeat' split
  all_goals simp_all
  all_goals omega

/-- Reads octets as characters. -/
def readChars : List UInt8 → List Char
  | [] => []
  | lead :: rest =>
    let read := readChar lead rest
    read.1 :: readChars read.2
termination_by octets => octets.length
decreasing_by
  have := readChar_length_le lead rest
  simp only [List.length_cons]
  omega

/-- Reads octets as a text. -/
def ofOctets (octets : List UInt8) : String :=
  String.ofList (readChars octets)

end Homestead.Text
