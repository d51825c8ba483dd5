/-
  Homestead.Text.Lowercase
  ────────────────────────
  **LOWER-CASING WITH THE FINAL SIGMA.**

  Names are compared by their full Unicode lower-case form.  Every
  character is mapped on its own, with two rules beside the table: the
  capital I with a dot becomes `i` and a combining dot, and a capital sigma
  becomes the final form `ς` exactly when a cased character stands before
  it and none after it, where ignorable characters are skipped in both
  directions.
-/
import Homestead.Text.CaseTable

namespace Homestead.Text

/-! ## §1. One character. -/

/-- Whether a code point lies in one of the ranges. -/
def inRanges (ranges : Array (Nat × Nat)) (n : Nat) : Bool :=
  ranges.any fun (first, last) => first ≤ n && n ≤ last

/-- Whether the search for a cased neighbour skips the character. -/
def isCaseIgnorable (c : Char) : Bool :=
  inRanges CaseTable.ignorable c.toNat

/-- Whether the character has a case and is not skipped. -/
def isCased (c : Char) : Bool :=
  inRanges CaseTable.cased c.toNat

/-- The simple lower-case form of a code point. -/
def lowerCode (n : Nat) : Nat :=
  match CaseTable.lowerShifts.find? fun row =>
      row.first ≤ n && n ≤ row.last && (n - row.first) % row.stride == 0 with
  | some row => (Int.ofNat n + row.offset).toNat
  | none => n

/-- The lower-case form of a character, away from any context. -/
def lowerChar (c : Char) : List Char :=
  if c.toNat < 0x80 then [if c.isUpper then Char.ofNat (c.toNat + 32) else c]
  else if c.toNat == 0x130 then ['i', Char.ofNat 0x307]
  else [Char.ofNat (lowerCode c.toNat)]

/-! ## §2. A text. -/

/-- The capital sigma. -/
def capitalSigma : Char := 'Σ'

/-- Whether the first character that is not ignorable is cased. -/
def startsCased (cs : List Char) : Bool :=
  match cs.dropWhile isCaseIgnorable with
  | [] => false
  | c :: _ => isCased c

/-- Lower-cases characters from left to right; `before` holds what has been passed, nearest
first. -/
def lowerChars (before : List Char) : List Char → List Char
  | [] => []
  | c :: rest =>
    let form :=
      if c = capitalSigma then
        [if startsCased before && !startsCased rest then 'ς' else 'σ']
      else lowerChar c
    form ++ lowerChars (c :: before) rest

/-- The lower-case form of a text. -/
def lowercase (s : String) : String :=
  String.ofList (lowerChars [] s.toList)

/-- The lower-case form of an ASCII letter; every other character is left alone. -/
def lowerAscii (s : String) : String :=
  s.map fun c => if c.isUpper then c.toLower else c

end Homestead.Text
