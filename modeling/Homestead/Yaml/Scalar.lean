/-
  Homestead.Yaml.Scalar
  ─────────────────────
  **THE FOUR WAYS TO WRITE A TEXT.**

  Plain and quoted texts run over lines: the white space between two words
  is a gap, and a gap with a line break in it is folded to one space or, if
  it has empty lines, to the breaks after the first.  Block texts keep or
  fold their lines and are told apart by indentation.
-/
import Homestead.Yaml.Cursor
import Homestead.Text.Numeral

namespace Homestead.Yaml

/-- How a text was written. -/
inductive Style where
  /-- Without quotes. -/
  | plain
  /-- Between single or double quotes. -/
  | quoted
  /-- As a block that keeps its lines. -/
  | literal
  /-- As a block that folds its lines. -/
  | folded
  deriving DecidableEq

/-! ## §1. Gaps between words. -/

/-- The white space between two words. -/
structure Gap where
  /-- Spaces and tabs before any line break. -/
  spaces : List Char := []
  /-- The first line break, when there is one. -/
  firstBreak : Option (List Char) := none
  /-- The line breaks after the first. -/
  moreBreaks : List Char := []

namespace Gap

/-- Whether the gap runs over a line end. -/
def isBroken (g : Gap) : Bool :=
  g.firstBreak.isSome

/-- The characters that the gap stands for. -/
def folded (g : Gap) : List Char :=
  match g.firstBreak with
  | none => g.spaces
  | some ['\n'] => if g.moreBreaks.isEmpty then [' '] else g.moreBreaks
  | some first => first ++ g.moreBreaks

/-- Reads the rest of a gap.  On a new line a tab left of column `tabLimit` is an error. -/
def scan (tabLimit : Int) : Nat → Cursor → Gap → Except Problem (Gap × Cursor)
  | 0, c, g => .ok (g, c)
  | fuel + 1, c, g =>
    match c.rest with
    | [] => .ok (g, c)
    | x :: _ =>
      if isSpace x then
        if g.isBroken then
          if x == '\t' && (c.column : Int) < tabLimit then .error .tabIndentation
          else scan tabLimit fuel (c.skip 1) g
        else scan tabLimit fuel (c.skip 1) { g with spaces := g.spaces ++ [x] }
      else if isBreak x then
        let (text, c) := c.takeBreak
        if g.isBroken then scan tabLimit fuel c { g with moreBreaks := g.moreBreaks ++ text }
        else scan tabLimit fuel c { firstBreak := some text }
      else .ok (g, c)

/-- Reads a gap from its start. -/
def read (tabLimit : Int) (c : Cursor) (g : Gap) : Except Problem (Gap × Cursor) :=
  scan tabLimit c.rest.length c g

end Gap

/-! ## §2. Plain texts. -/

/-- The characters that end a plain text inside brackets. -/
def isFlowIndicator (c : Char) : Bool :=
  c == ',' || c == '[' || c == ']' || c == '{' || c == '}'

/-- The word of a plain text that starts here. -/
def plainWord (inFlow : Bool) : List Char → Except Problem (List Char)
  | [] => .ok []
  | c :: rest =>
    if isSpace c || isBreak c then .ok []
    else if inFlow && c == ':' && rest.head?.any (fun d => d == '?' || isFlowIndicator d) then
      .error .misplacedIndicator
    else if c == ':' && blankOrEnd rest then .ok []
    else if inFlow && isFlowIndicator c then .ok []
    else (plainWord inFlow rest).map (c :: ·)

/-- Reads words and gaps; `text` is what has been read and `gap` the gap behind it.  Gives the
text, whether the gap behind it is broken, and the cursor behind that gap. -/
def plainWords (inFlow : Bool) (indent : Int) :
    Nat → Cursor → List Char → Gap → Except Problem (List Char × Bool × Cursor)
  | 0, c, text, gap => .ok (text, gap.isBroken, c)
  | fuel + 1, c, text, gap => do
    if c.atDocumentMark || c.rest.head? == some '#' then return (text, gap.isBroken, c)
    let word ← plainWord inFlow c.rest
    if word.isEmpty then return (text, gap.isBroken, c)
    let text := text ++ gap.folded ++ word
    let c := c.skip word.length
    if c.rest.head?.any (fun x => isSpace x || isBreak x) then
      let (gap, c) ← Gap.read indent c {}
      if !inFlow && (c.column : Int) < indent then return (text, gap.isBroken, c)
      plainWords inFlow indent fuel c text gap
    else return (text, false, c)

/-- Reads a plain text whose further lines are indented to column `indent` at least. -/
def scanPlain (inFlow : Bool) (indent : Int) (c : Cursor) :
    Except Problem (List Char × Bool × Cursor) :=
  plainWords inFlow indent (c.rest.length + 1) c [] {}

/-! ## §3. Quoted texts. -/

/-- The character of a one-letter escape. -/
def escapeLetter? : Char → Option Char
  | '0' => some (Char.ofNat 0)
  | 'a' => some (Char.ofNat 7)
  | 'b' => some (Char.ofNat 8)
  | 't' => some '\t'
  | '\t' => some '\t'
  | 'n' => some '\n'
  | 'v' => some (Char.ofNat 11)
  | 'f' => some (Char.ofNat 12)
  | 'r' => some '\r'
  | 'e' => some (Char.ofNat 27)
  | ' ' => some ' '
  | '"' => some '"'
  | '/' => some '/'
  | '\\' => some '\\'
  | 'N' => some (Char.ofNat 0x85)
  | '_' => some (Char.ofNat 0xA0)
  | 'L' => some (Char.ofNat 0x2028)
  | 'P' => some (Char.ofNat 0x2029)
  | _ => none

/-- The number of hexadecimal digits that an escape letter asks for. -/
def escapeWidth? : Char → Option Nat
  | 'x' => some 2
  | 'u' => some 4
  | 'U' => some 8
  | _ => none

/-- Reads an escape behind its backslash: its character and its length. -/
def scanEscape (cs : List Char) : Except Problem (Char × Nat) :=
  match cs with
  | [] => .error .badEscape
  | letter :: rest =>
    match escapeLetter? letter with
    | some c => .ok (c, 1)
    | none =>
      match escapeWidth? letter with
      | none => .error .badEscape
      | some width =>
        let digits := rest.take width
        match Text.numeral? 16 digits with
        | none => .error .badEscape
        | some n =>
          if digits.length < width || (0xD800 ≤ n && n ≤ 0xDFFF) || 0x10FFFF < n then
            .error .badEscape
          else .ok (Char.ofNat n, 1 + width)

/-- Reads a quoted text to its closing quote; `text` holds the characters read, last first. -/
def quotedChars (double : Bool) : Nat → Cursor → List Char → Except Problem (List Char × Cursor)
  | 0, _, _ => .error .openQuote
  | fuel + 1, c, text =>
    if c.atDocumentMark then .error .openQuote
    else match c.rest with
    | [] => .error .openQuote
    | x :: rest =>
      if !double && x == '\'' then
        if rest.head? == some '\'' then quotedChars double fuel (c.skip 2) ('\'' :: text)
        else .ok (text, c.skip 1)
      else if double && x == '"' then .ok (text, c.skip 1)
      else if double && x == '\\' then
        if rest.head?.any isBreak then do
          let (gap, c) ← Gap.read 0 (c.skip 1).takeBreak.2 { firstBreak := some [] }
          quotedChars double fuel c (gap.folded.reverse ++ text)
        else do
          let (e, width) ← scanEscape rest
          quotedChars double fuel (c.skip (1 + width)) (e :: text)
      else if isSpace x || isBreak x then do
        let (gap, c) ← Gap.read 0 c {}
        quotedChars double fuel c (gap.folded.reverse ++ text)
      else quotedChars double fuel (c.skip 1) (x :: text)

/-- Reads a quoted text from behind its opening quote. -/
def scanQuoted (double : Bool) (c : Cursor) : Except Problem (List Char × Cursor) :=
  (quotedChars double (c.rest.length + 1) c []).map fun (text, c) => (text.reverse, c)

/-! ## §4. Block texts. -/

/-- What becomes of the line breaks at the end of a block text. -/
inductive Chomping where
  /-- All are dropped. -/
  | strip
  /-- The first is kept. -/
  | clip
  /-- All are kept. -/
  | keep
  deriving DecidableEq

/-- Reads the signs behind the indicator of a block text: chomping, and the indentation when it
is given. -/
def blockSigns (c : Cursor) : Except Problem (Chomping × Option Nat × Cursor) :=
  let chomping? : Char → Option Chomping
    | '+' => some .keep
    | '-' => some .strip
    | _ => none
  let digit (c : Cursor) : Except Problem (Option Nat × Cursor) :=
    match c.rest with
    | d :: _ =>
      if d == '0' then .error .badBlockHeader
      else if d.isDigit then .ok (some (d.toNat - '0'.toNat), c.skip 1)
      else .ok (none, c)
    | [] => .ok (none, c)
  match c.rest.head?.bind chomping? with
  | some chomping => do
    let (indent, c) ← digit (c.skip 1)
    return (chomping, indent, c)
  | none => do
    let (indent, c) ← digit c
    match indent, c.rest.head?.bind chomping? with
    | some n, some chomping => return (chomping, some n, c.skip 1)
    | _, _ => return (.clip, indent, c)

/-- Reads empty lines and the indentation after them.  An `indent` of 0 is still unknown: then
all leading spaces are passed and the widest column is given. -/
def blockBreaks (indent : Nat) :
    Nat → Cursor → Nat → List Char → Except Problem (Nat × List Char × Cursor)
  | 0, c, widest, breaks => .ok (widest, breaks, c)
  | fuel + 1, c, widest, breaks =>
    let spaces := (c.rest.takeWhile (· == ' ')).length
    let c := c.skip (if indent == 0 then spaces else min spaces (indent - c.column))
    let widest := max widest c.column
    match c.rest with
    | [] => .ok (widest, breaks, c)
    | x :: _ =>
      if x == '\t' && (indent == 0 || c.column < indent) then .error .tabIndentation
      else if isBreak x then
        let (text, c) := c.takeBreak
        blockBreaks indent fuel c widest (breaks ++ text)
      else .ok (widest, breaks, c)

/-- Reads the lines of a block text.  `lastBreak` is the break behind the line read last,
`breaks` are the breaks of the empty lines behind it, and `wasBlank` says whether it started with
white space. -/
def blockLines (fold : Bool) (indent : Nat) :
    Nat → Cursor → List Char → List Char → List Char → Bool →
      Except Problem (List Char × List Char × List Char × Cursor)
  | 0, c, text, lastBreak, breaks, _ => .ok (text, lastBreak, breaks, c)
  | fuel + 1, c, text, lastBreak, breaks, wasBlank =>
    if c.column == indent && !c.rest.isEmpty then do
      let isBlank := c.rest.head?.any isSpace
      let joint :=
        if fold && lastBreak == ['\n'] && !wasBlank && !isBlank then
          if breaks.isEmpty then [' '] else []
        else lastBreak
      let (line, c) := c.takeWhile (fun x => !isBreak x)
      let text := text ++ joint ++ breaks ++ line
      let (lastBreak, c) := c.takeBreak
      let (_, breaks, c) ← blockBreaks indent (c.rest.length + 1) c 0 []
      blockLines fold indent fuel c text lastBreak breaks isBlank
    else .ok (text, lastBreak, breaks, c)

/-- Reads a block text from behind its indicator, inside a block that is indented to column
`parent`. -/
def scanBlock (fold : Bool) (parent : Int) (c : Cursor) : Except Problem (List Char × Cursor) := do
  let (chomping, given, c) ← blockSigns c
  let c := (c.takeWhile isSpace).2
  let c := if c.rest.head? == some '#' then (c.takeWhile (fun x => !isBreak x)).2 else c
  if !breakOrEnd c.rest then throw .badBlockHeader
  let c := c.takeBreak.2
  let asked := match given with
    | some n => (if parent ≥ 0 then parent else 0).toNat + n
    | none => 0
  let (widest, breaks, c) ← blockBreaks asked (c.rest.length + 1) c 0 []
  let indent := if asked == 0 then max (max widest (parent + 1).toNat) 1 else asked
  let (text, lastBreak, breaks, c) ←
    blockLines fold indent (c.rest.length + 1) c [] [] breaks false
  let tail := match chomping with
    | .strip => []
    | .clip => lastBreak
    | .keep => lastBreak ++ breaks
  return (text ++ tail, c)

end Homestead.Yaml
