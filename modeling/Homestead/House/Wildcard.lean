/-
  Homestead.House.Wildcard
  ────────────────────────
  **PATTERNS FOR NAMES.**

  A pattern stands for a whole name.  In it `*` stands for any run of
  characters of one line, `?` for at most one character other than a line
  feed, and every other character for itself.

  Matching works backwards through the pattern.  It keeps a row with one
  answer for each ending of the name, the whole name first: whether the
  part of the pattern behind the present place matches that ending.  The
  work is the product of both lengths, whatever the pattern.
-/

namespace Homestead

/-! ## §1. Patterns. -/

/-- One place of a pattern. -/
inductive Wildcard where
  /-- Any run of characters of one line. -/
  | run
  /-- At most one character, not a line feed. -/
  | optional
  /-- The character itself. -/
  | literal (c : Char)
  deriving DecidableEq

namespace Wildcard

/-- The place that a character of a pattern stands for. -/
def ofChar (c : Char) : Wildcard :=
  if c = '*' then run else if c = '?' then optional else literal c

/-- The places of a pattern. -/
def ofText (pattern : List Char) : List Wildcard :=
  pattern.map ofChar

/-! ## §2. Matching. -/

/-- The answers for the empty pattern: it matches the empty ending only. -/
def emptyRow : List Char → List Bool
  | [] => [true]
  | _ :: name => false :: emptyRow name

/-- The answer for the whole name in a row. -/
def whole (row : List Bool) : Bool :=
  row.headD false

/-- The answers once one more place stands in front; `row` has the answers without it. -/
def prepend (w : Wildcard) : List Char → List Bool → List Bool
  | [], row =>
    match w with
    | literal _ => [false]
    | _ => [whole row]
  | c :: name, row =>
    let behind := row.tail
    let later := prepend w name behind
    let here := match w with
      | run => whole row || (c != '\n' && whole later)
      | optional => whole row || (c != '\n' && whole behind)
      | literal d => c == d && whole behind
    here :: later

/-- The answers of a pattern for every ending of a name. -/
def row (name : List Char) (pattern : List Wildcard) : List Bool :=
  pattern.foldr (fun w row => prepend w name row) (emptyRow name)

/-- Whether a pattern matches a whole name. -/
def accepts (pattern : List Wildcard) (name : List Char) : Bool :=
  whole (row name pattern)

end Wildcard

end Homestead
