/-
  Homestead.Yaml.Cursor
  ─────────────────────
  **A PLACE IN A YAML TEXT.**

  A cursor is the text still to be read with its place: how many characters
  have been passed, on which line and in which column.  Line breaks are
  line feed, carriage return, both together, next line, and the line and
  paragraph separators; the end of the text counts as a break where a
  lookahead asks for one.
-/

namespace Homestead.Yaml

/-! ## §1. What can be wrong with a text. -/

/-- The reason why a text is refused. -/
inductive Problem where
  /-- A control character. -/
  | controlCharacter
  /-- A character that starts nothing. -/
  | strayCharacter
  /-- A tab where only spaces indent. -/
  | tabIndentation
  /-- A quoted text without its end. -/
  | openQuote
  /-- An escape that means nothing. -/
  | badEscape
  /-- A block text with a bad head line. -/
  | badBlockHeader
  /-- An anchor, alias, tag or directive without a proper name. -/
  | badName
  /-- A list entry, key or value where none may stand. -/
  | misplacedIndicator
  /-- A key without its colon. -/
  | missingColon
  /-- A collection without its end, or with a foreign part in it. -/
  | brokenCollection
  /-- A node that is not there. -/
  | missingNode
  /-- An alias that nothing is named by. -/
  | unknownAlias
  /-- More than one document. -/
  | manyDocuments
  /-- Collections nested too deep. -/
  | tooDeep
  /-- A value of another form than the one wanted. -/
  | unexpected (wanted : String)
  /-- A number outside its range. -/
  | outOfRange
  /-- A key that means nothing here. -/
  | unknownField (name : String)
  /-- A key that is there twice. -/
  | duplicateField (name : String)
  /-- A key that is not there. -/
  | missingField (name : String)
  /-- A name outside a fixed list. -/
  | unknownVariant (name : String)
  deriving DecidableEq

/-- The wording of a reason. -/
def Problem.message : Problem → String
  | controlCharacter => "control characters are not allowed"
  | strayCharacter => "found character that cannot start any token"
  | tabIndentation => "found a tab character that violates indentation"
  | openQuote => "found unexpected end of quoted scalar"
  | badEscape => "found invalid escape in a quoted scalar"
  | badBlockHeader => "did not find expected block scalar header"
  | badName => "did not find expected name"
  | misplacedIndicator => "indicator is not allowed in this context"
  | missingColon => "could not find expected ':'"
  | brokenCollection => "did not find expected entry or end of collection"
  | missingNode => "did not find expected node content"
  | unknownAlias => "unknown anchor"
  | manyDocuments => "more than one document"
  | tooDeep => "recursion limit exceeded"
  | unexpected wanted => "invalid type, expected " ++ wanted
  | outOfRange => "invalid value, number out of range"
  | unknownField name => "unknown field " ++ name
  | duplicateField name => "duplicate field " ++ name
  | missingField name => "missing field " ++ name
  | unknownVariant name => "unknown variant " ++ name

/-! ## §2. Character classes. -/

/-- Whether a character may stand in a text at all. -/
def isAllowed (c : Char) : Bool :=
  let n := c.toNat
  n == 0x09 || n == 0x0A || n == 0x0D || (0x20 ≤ n && n ≤ 0x7E) || n == 0x85
    || (0xA0 ≤ n && n ≤ 0xD7FF) || (0xE000 ≤ n && n ≤ 0xFFFD) || 0x10000 ≤ n

/-- Whether a character ends a line. -/
def isBreak (c : Char) : Bool :=
  let n := c.toNat
  n == 0x0A || n == 0x0D || n == 0x85 || n == 0x2028 || n == 0x2029

/-- Whether a character is a space or a tab. -/
def isSpace (c : Char) : Bool :=
  c == ' ' || c == '\t'

/-- Whether a character may stand in the name of an anchor or a directive. -/
def isNameChar (c : Char) : Bool :=
  c.isAlphanum || c == '-' || c == '_'

/-- Whether nothing, a space or a break follows. -/
def blankOrEnd : List Char → Bool
  | [] => true
  | c :: _ => isSpace c || isBreak c

/-- Whether nothing or a break follows. -/
def breakOrEnd : List Char → Bool
  | [] => true
  | c :: _ => isBreak c

/-! ## §3. The cursor. -/

/-- A place in a text. -/
structure Cursor where
  /-- The text still to be read. -/
  rest : List Char
  /-- Characters passed. -/
  index : Nat := 0
  /-- Line, from 0. -/
  line : Nat := 0
  /-- Column, from 0. -/
  column : Nat := 0

namespace Cursor

/-- Passes characters of the present line. -/
def skip (c : Cursor) (n : Nat) : Cursor :=
  { c with rest := c.rest.drop n, index := c.index + n, column := c.column + n }

/-- Passes one line break and gives the characters that it stands for in a text. -/
def takeBreak (c : Cursor) : List Char × Cursor :=
  let next (width : Nat) : Cursor :=
    { rest := c.rest.drop width, index := c.index + width, line := c.line + 1, column := 0 }
  match c.rest with
  | '\r' :: '\n' :: _ => (['\n'], next 2)
  | b :: _ =>
    if b.toNat == 0x2028 || b.toNat == 0x2029 then ([b], next 1)
    else if isBreak b then (['\n'], next 1)
    else ([], c)
  | [] => ([], c)

/-- Passes the longest run of characters with a property; the property holds of no break. -/
def takeWhile (p : Char → Bool) (c : Cursor) : List Char × Cursor :=
  let run := c.rest.takeWhile p
  (run, c.skip run.length)

/-- Whether the cursor stands at the line start of a document mark: three times the character,
then a blank or the end. -/
def atMark (c : Cursor) (mark : Char) : Bool :=
  c.column == 0 &&
    match c.rest with
    | x :: y :: z :: r => x == mark && y == mark && z == mark && blankOrEnd r
    | _ => false

/-- Whether the cursor stands at a mark that starts or ends a document. -/
def atDocumentMark (c : Cursor) : Bool :=
  c.atMark '-' || c.atMark '.'

end Cursor

end Homestead.Yaml
