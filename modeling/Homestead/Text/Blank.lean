/-
  Homestead.Text.Blank
  ────────────────────
  **BLANK CHARACTERS AND TRIMMING.**

  Names, access-list entries and settings are trimmed by the Unicode
  property "white space", which has 25 characters and is wider than the
  ASCII notion of `Char.isWhitespace`.  Trimming removes the longest blank
  run at either end and nothing else.
-/

namespace Homestead.Text

/-! ## §1. The property. -/

/-- Holds of the 25 characters that have the Unicode property "white space". -/
def isBlank (c : Char) : Bool :=
  let n := c.toNat
  (9 ≤ n && n ≤ 13) || n == 0x20 || n == 0x85 || n == 0xA0 || n == 0x1680
    || (0x2000 ≤ n && n ≤ 0x200A) || n == 0x2028 || n == 0x2029 || n == 0x202F
    || n == 0x205F || n == 0x3000

/-! ## §2. Trimming. -/

/-- Drops the blank characters at both ends of a list of characters. -/
def trimChars (cs : List Char) : List Char :=
  ((cs.dropWhile isBlank).reverse.dropWhile isBlank).reverse

/-- Drops the blank characters at both ends of a text. -/
def trim (s : String) : String :=
  String.ofList (trimChars s.toList)

end Homestead.Text
