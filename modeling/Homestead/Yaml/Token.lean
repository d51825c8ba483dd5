/-
  Homestead.Yaml.Token
  ────────────────────
  **THE TOKENS OF A YAML TEXT.**

  Indentation becomes explicit: a block collection opens with a token of
  its own and closes with `blockEnd`.  A simple key is recognised only at
  its colon, so a place where a key may have begun is remembered as a
  candidate, and the key token is inserted there afterwards.  A candidate
  lapses at the end of its line or after 1024 characters.
-/
import Homestead.Text.Utf8
import Homestead.Yaml.Scalar

namespace Homestead.Yaml

/-! ## §1. Tokens. -/

/-- A token. -/
inductive Token where
  /-- The version that the text asks for. -/
  | version (major minor : Nat)
  /-- A short handle for tags. -/
  | tagHandle (handle stem : String)
  /-- Three hyphens. -/
  | documentStart
  /-- Three dots. -/
  | documentEnd
  /-- An indented list begins. -/
  | blockSequenceStart
  /-- An indented mapping begins. -/
  | blockMappingStart
  /-- An indented collection ends. -/
  | blockEnd
  /-- An opening square bracket. -/
  | flowSequenceStart
  /-- A closing square bracket. -/
  | flowSequenceEnd
  /-- An opening curly bracket. -/
  | flowMappingStart
  /-- A closing curly bracket. -/
  | flowMappingEnd
  /-- The hyphen of a list entry. -/
  | blockEntry
  /-- A comma. -/
  | flowEntry
  /-- A key follows. -/
  | key
  /-- A value follows. -/
  | value
  /-- A reference to a named node. -/
  | alias (name : String)
  /-- The name of the node that follows. -/
  | anchor (name : String)
  /-- The tag of the node that follows. -/
  | tag (handle suffix : String)
  /-- A text. -/
  | scalar (style : Style) (text : String)
  deriving DecidableEq

/-! ## §2. The state between two tokens. -/

/-- A place where a key may have begun. -/
structure Candidate where
  /-- Whether only a key may stand there. -/
  required : Bool
  /-- The number of tokens before it. -/
  token : Nat
  /-- Its place in the text. -/
  index : Nat
  /-- Its line. -/
  line : Nat
  /-- Its column. -/
  column : Nat

/-- The state of the search for tokens. -/
structure Scan where
  /-- The text still to be read. -/
  cursor : Cursor
  /-- The column of the innermost block collection, -1 outside of all. -/
  indent : Int := -1
  /-- The columns of the collections around it. -/
  outerIndents : List Int := []
  /-- The candidate of the innermost bracket level. -/
  candidate : Option Candidate := none
  /-- The candidates of the levels around it; as many as brackets are open. -/
  outerCandidates : List (Option Candidate) := []
  /-- Whether a simple key may begin here. -/
  keyAllowed : Bool := true
  /-- The tokens found. -/
  tokens : Array Token := #[]

namespace Scan

/-- Whether the cursor is inside brackets. -/
def inFlow (s : Scan) : Bool :=
  !s.outerCandidates.isEmpty

/-- Adds a token. -/
def emit (s : Scan) (t : Token) : Scan :=
  { s with tokens := s.tokens.push t }

/-- Adds a token before the token with number `i`. -/
def emitAt (s : Scan) (i : Nat) (t : Token) : Scan :=
  { s with tokens := s.tokens.take i |>.push t |>.append (s.tokens.drop i) }

/-- Opens a block collection at a column right of the present one, before token `i`. -/
def openBlock (s : Scan) (column : Nat) (i : Nat) (t : Token) : Scan :=
  if !s.inFlow && s.indent < column then
    { (s.emitAt i t) with indent := column, outerIndents := s.indent :: s.outerIndents }
  else s

/-- Closes the block collections that are indented further than a column. -/
def closeBlocks (s : Scan) (column : Int) : Scan :=
  if s.inFlow then s else go s.outerIndents s
where
  go : List Int → Scan → Scan
    | [], s => s
    | outer :: rest, s =>
      if s.indent > column then
        go rest { (s.emit .blockEnd) with indent := outer, outerIndents := rest }
      else s

/-- Gives up a candidate, which is an error where only a key may stand. -/
def dropCandidate (s : Scan) : Except Problem Scan :=
  match s.candidate with
  | some k => if k.required then .error .missingColon else .ok { s with candidate := none }
  | none => .ok s

/-- Remembers the present place as a candidate, if a key may begin here. -/
def saveCandidate (s : Scan) : Except Problem Scan :=
  if s.keyAllowed then do
    let s ← s.dropCandidate
    let required := !s.inFlow && s.indent == (s.cursor.column : Int)
    let place : Candidate :=
      { required, token := s.tokens.size, index := s.cursor.index
        line := s.cursor.line, column := s.cursor.column }
    return { s with candidate := some place }
  else .ok s

/-- Whether a candidate has lapsed. -/
def isLapsed (s : Scan) (k : Candidate) : Bool :=
  k.line < s.cursor.line || k.index + 1024 < s.cursor.index

/-- Drops one candidate if it has lapsed. -/
def lapse (s : Scan) : Option Candidate → Except Problem (Option Candidate)
  | none => .ok none
  | some k =>
    if s.isLapsed k then (if k.required then .error .missingColon else .ok none)
    else .ok (some k)

/-- Drops all candidates that have lapsed. -/
def lapseAll (s : Scan) : Except Problem Scan := do
  let candidate ← s.lapse s.candidate
  let outerCandidates ← s.outerCandidates.mapM s.lapse
  return { s with candidate, outerCandidates }

/-! ## §3. White space, comments and names. -/

/-- Passes white space, comments and line breaks. -/
def skipBlanks : Nat → Scan → Scan
  | 0, s => s
  | fuel + 1, s =>
    let tabs := s.inFlow || !s.keyAllowed
    let c := (s.cursor.takeWhile fun x => x == ' ' || (tabs && x == '\t')).2
    let c := if c.rest.head? == some '#' then (c.takeWhile fun x => !isBreak x).2 else c
    if c.rest.head?.any isBreak then
      skipBlanks fuel
        { s with cursor := c.takeBreak.2, keyAllowed := s.keyAllowed || !s.inFlow }
    else { s with cursor := c }

/-- Reads the name of an anchor or alias behind its indicator. -/
def scanName (c : Cursor) : Except Problem (String × Cursor) :=
  let (name, c) := c.takeWhile isNameChar
  let mayFollow (x : Char) : Bool :=
    x == '?' || x == ':' || x == ',' || x == ']' || x == '\x7d' || x == '%' || x == '@'
      || x == Char.ofNat 0x60
  if name.isEmpty || !(blankOrEnd c.rest || c.rest.head?.any mayFollow) then .error .badName
  else .ok (String.ofList name, c)

/-- Whether a character may stand in a tag; commas and square brackets only in a full one. -/
def isTagChar (full : Bool) (c : Char) : Bool :=
  isNameChar c || ";/?:@&=+$.!~*'()%".toList.contains c || (full && ",[]".toList.contains c)

/-- Replaces the escaped octets of a tag. -/
def unescapeTag : List Char → Except Problem (List UInt8)
  | [] => .ok []
  | '%' :: a :: b :: rest =>
    match Text.numeral? 16 [a, b] with
    | some n => (unescapeTag rest).map (UInt8.ofNat n :: ·)
    | none => .error .badName
  | '%' :: _ => .error .badName
  | c :: rest => (unescapeTag rest).map (String.utf8EncodeChar c ++ ·)

/-- Reads the characters of a tag, which follow those in `head`. -/
def scanTagText (full : Bool) (head : List Char) (c : Cursor) :
    Except Problem (String × Cursor) := do
  let (run, c) := c.takeWhile (isTagChar full)
  let octets ← unescapeTag run
  let text := head.drop 1 ++ Text.readChars octets
  if head.isEmpty && run.isEmpty then throw .badName
  return (String.ofList text, c)

/-- Reads a handle: an exclamation mark, and perhaps a name with another one behind it. -/
def scanTagHandle (c : Cursor) : List Char × Cursor :=
  let (name, after) := (c.skip 1).takeWhile isNameChar
  if after.rest.head? == some '!' then ('!' :: name ++ ['!'], after.skip 1)
  else ('!' :: name, after)

/-- Reads a tag from its exclamation mark. -/
def scanTag (inFlow : Bool) (c : Cursor) : Except Problem (Token × Cursor) := do
  let (token, c) ←
    if (c.rest.drop 1).head? == some '<' then do
      let (text, c) ← scanTagText true [] (c.skip 2)
      if c.rest.head? == some '>' then pure (Token.tag "" text, c.skip 1) else throw .badName
    else do
      let (handle, after) := scanTagHandle c
      if handle.length > 1 && handle.getLast? == some '!' then
        let (suffix, c) ← scanTagText false [] after
        pure (Token.tag (String.ofList handle) suffix, c)
      else
        let (suffix, c) ← scanTagText false handle after
        if suffix == "" then pure (Token.tag "" "!", c) else pure (Token.tag "!" suffix, c)
  if blankOrEnd c.rest || (inFlow && c.rest.head? == some ',') then return (token, c)
  throw .badName

/-- Reads a directive behind its percent sign. -/
def scanDirective (c : Cursor) : Except Problem (Token × Cursor) := do
  let (name, c) := c.takeWhile isNameChar
  if name.isEmpty || !blankOrEnd c.rest then throw .badName
  let blanks (c : Cursor) := (c.takeWhile isSpace).2
  let c := blanks c
  let (token, c) ←
    if name == "YAML".toList then do
      let (major, c) := c.takeWhile Char.isDigit
      if c.rest.head? != some '.' then throw .badName
      let (minor, c) := (c.skip 1).takeWhile Char.isDigit
      match Text.numeral? 10 major, Text.numeral? 10 minor with
      | some major, some minor => pure (Token.version major minor, c)
      | _, _ => throw .badName
    else if name == "TAG".toList then do
      if c.rest.head? != some '!' then throw .badName
      let (handle, c) := scanTagHandle c
      if handle != ['!'] && handle.getLast? != some '!' then throw .badName
      if !c.rest.head?.any isSpace then throw .badName
      let (stem, c) ← scanTagText true [] (blanks c)
      if !blankOrEnd c.rest then throw .badName
      pure (Token.tagHandle (String.ofList handle) stem, c)
    else throw .badName
  let c := blanks c
  let c := if c.rest.head? == some '#' then (c.takeWhile fun x => !isBreak x).2 else c
  if !breakOrEnd c.rest then throw .badName
  return (token, c.takeBreak.2)

/-! ## §4. One token. -/

/-- Adds a token that is so many characters wide. -/
def emitWide (s : Scan) (width : Nat) (t : Token) : Scan :=
  { (s.emit t) with cursor := s.cursor.skip width }

/-- Ends all that a document mark or directive ends. -/
def atMargin (s : Scan) : Except Problem Scan := do
  let s ← (s.closeBlocks (-1)).dropCandidate
  return { s with keyAllowed := false }

/-- A bracket opens. -/
def openFlow (s : Scan) (t : Token) : Except Problem Scan := do
  let s ← s.saveCandidate
  return { (s.emitWide 1 t) with
    candidate := none, outerCandidates := s.candidate :: s.outerCandidates, keyAllowed := true }

/-- A bracket closes. -/
def closeFlow (s : Scan) (t : Token) : Except Problem Scan := do
  let s ← s.dropCandidate
  let s := match s.outerCandidates with
    | [] => s
    | candidate :: outerCandidates => { s with candidate, outerCandidates }
  return { (s.emitWide 1 t) with keyAllowed := false }

/-- A comma. -/
def flowEntry (s : Scan) : Except Problem Scan := do
  let s ← s.dropCandidate
  return { (s.emitWide 1 .flowEntry) with keyAllowed := true }

/-- The hyphen of a list entry. -/
def blockEntry (s : Scan) : Except Problem Scan := do
  if !s.inFlow && !s.keyAllowed then throw .misplacedIndicator
  let s := s.openBlock s.cursor.column s.tokens.size .blockSequenceStart
  let s ← s.dropCandidate
  return { (s.emitWide 1 .blockEntry) with keyAllowed := true }

/-- The question mark before a key. -/
def explicitKey (s : Scan) : Except Problem Scan := do
  if !s.inFlow && !s.keyAllowed then throw .misplacedIndicator
  let s := s.openBlock s.cursor.column s.tokens.size .blockMappingStart
  let s ← s.dropCandidate
  return { (s.emitWide 1 .key) with keyAllowed := !s.inFlow }

/-- The colon before a value. -/
def mappingValue (s : Scan) : Except Problem Scan :=
  match s.candidate with
  | some k =>
    let s := (s.emitAt k.token .key).openBlock k.column k.token .blockMappingStart
    .ok { (s.emitWide 1 .value) with candidate := none, keyAllowed := false }
  | none =>
    if !s.inFlow && !s.keyAllowed then .error .misplacedIndicator
    else
      let s := s.openBlock s.cursor.column s.tokens.size .blockMappingStart
      .ok { (s.emitWide 1 .value) with keyAllowed := !s.inFlow }

/-- Adds a token that may be a simple key. -/
def atom (s : Scan) (read : Cursor → Except Problem (Token × Cursor)) : Except Problem Scan := do
  let s ← s.saveCandidate
  let (t, cursor) ← read s.cursor
  return { (s.emit t) with cursor, keyAllowed := false }

/-- A quoted text. -/
def quotedScalar (s : Scan) (double : Bool) : Except Problem Scan :=
  s.atom fun c => do
    let (text, c) ← scanQuoted double (c.skip 1)
    return (.scalar .quoted (String.ofList text), c)

/-- A plain text; a line end behind it allows a key. -/
def plainScalar (s : Scan) : Except Problem Scan := do
  let s ← s.saveCandidate
  let (text, broken, cursor) ← scanPlain s.inFlow (s.indent + 1) s.cursor
  return { (s.emit (.scalar .plain (String.ofList text))) with cursor, keyAllowed := broken }

/-- A block text. -/
def blockScalar (s : Scan) (fold : Bool) : Except Problem Scan := do
  let s ← s.dropCandidate
  let (text, cursor) ← scanBlock fold s.indent (s.cursor.skip 1)
  let style := if fold then Style.folded else .literal
  return { (s.emit (.scalar style (String.ofList text))) with cursor, keyAllowed := true }

/-- Whether a plain text may start with these characters. -/
def startsPlain (inFlow : Bool) (c : Char) (rest : List Char) : Bool :=
  !(isSpace c || isBreak c || c == Char.ofNat 0x60
      || "-?:,[]\x7b\x7d#&*!|>'\"%@".toList.contains c)
    || (c == '-' && !rest.head?.any isSpace)
    || (!inFlow && (c == '?' || c == ':') && !blankOrEnd rest)

/-- Adds the token at the cursor, which stands at the character `c` with `rest` behind it. -/
def token (s : Scan) (c : Char) (rest : List Char) : Except Problem Scan := do
  if s.cursor.column == 0 && c == '%' then
    let s ← s.atMargin
    let (t, cursor) ← scanDirective (s.cursor.skip 1)
    return { (s.emit t) with cursor }
  if s.cursor.atMark '-' then return (← s.atMargin).emitWide 3 .documentStart
  if s.cursor.atMark '.' then return (← s.atMargin).emitWide 3 .documentEnd
  match c with
  | '[' => s.openFlow .flowSequenceStart
  | '\x7b' => s.openFlow .flowMappingStart
  | ']' => s.closeFlow .flowSequenceEnd
  | '\x7d' => s.closeFlow .flowMappingEnd
  | ',' => s.flowEntry
  | '*' => s.atom fun c => do
    let (name, c) ← scanName (c.skip 1)
    return (.alias name, c)
  | '&' => s.atom fun c => do
    let (name, c) ← scanName (c.skip 1)
    return (.anchor name, c)
  | '!' => s.atom (scanTag s.inFlow)
  | '\'' => s.quotedScalar false
  | '"' => s.quotedScalar true
  | _ =>
    if c == '-' && blankOrEnd rest then s.blockEntry
    else if c == '?' && (s.inFlow || blankOrEnd rest) then s.explicitKey
    else if c == ':' && (s.inFlow || blankOrEnd rest) then s.mappingValue
    else if c == '|' && !s.inFlow then s.blockScalar false
    else if c == '>' && !s.inFlow then s.blockScalar true
    else if startsPlain s.inFlow c rest then s.plainScalar
    else .error .strayCharacter

/-! ## §5. All tokens. -/

/-- Adds the tokens of the rest of the text. -/
def run : Nat → Scan → Except Problem Scan
  | 0, s => .ok s
  | fuel + 1, s => do
    let s ← (skipBlanks (s.cursor.rest.length + 1) s).lapseAll
    let s := s.closeBlocks s.cursor.column
    match s.cursor.rest with
    | [] => s.atMargin
    | c :: rest => run fuel (← s.token c rest)

end Scan

/-- The tokens of a text; a byte order mark before it is passed over. -/
def Token.scan (text : List Char) : Except Problem (List Token) := do
  let text := if text.head? == some (Char.ofNat 0xFEFF) then text.drop 1 else text
  if !text.all isAllowed then throw .controlCharacter
  let s ← Scan.run (text.length + 1) { cursor := { rest := text } }
  return s.tokens.toList

end Homestead.Yaml
