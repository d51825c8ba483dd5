/-
  Homestead.House.AccessList
  ──────────────────────────
  **WHO MAY ENTER: LISTS THAT PLAYERS WRITE.**

  A list is a text of entries between line feeds and commas.  An entry
  names a guild after `@`, is a pattern when it holds `!`, `*` or `?`, and
  names a character otherwise.  Blank entries, entries that start with `#`
  and entries of more than 100 octets count for nothing, and so do names
  that nobody has.

  A pattern with `!` in front rejects.  Rejections stand before grants, so
  the first pattern that matches a name decides; a name that no pattern
  matches is let in by its number or by the number of its guild.
-/
import Homestead.House.NameSource
import Homestead.House.Wildcard
import Homestead.Text.Blank

namespace Homestead

/-! ## §1. Entries. -/

/-- An entry of an access list. -/
inductive AccessEntry where
  /-- The guild of that name. -/
  | guild (name : String)
  /-- A pattern as it was written. -/
  | expression (text : String)
  /-- The character of that name. -/
  | player (name : String)
  deriving DecidableEq

namespace AccessEntry

/-- The most octets that an entry may have. -/
def maxLength : Nat := 100

/-- Whether a character makes an entry a pattern. -/
def isPatternChar (c : Char) : Bool :=
  c == '!' || c == '*' || c == '?'

/-- The entry in a trimmed piece of text, if it counts. -/
def ofPiece? (piece : String) : Option AccessEntry :=
  match piece.toList with
  | [] => none
  | '#' :: _ => none
  | '@' :: name =>
    if piece.utf8ByteSize > maxLength then none
    else some (.guild (Text.trim (String.ofList name)))
  | cs =>
    if piece.utf8ByteSize > maxLength then none
    else if cs.any isPatternChar then some (.expression piece)
    else some (.player piece)

/-- Whether a character stands between entries. -/
def isSeparator (c : Char) : Bool :=
  c == '\n' || c == ','

/-- The pieces of a text between separators. -/
def pieces : List Char → List (List Char)
  | [] => [[]]
  | c :: rest =>
    if isSeparator c then [] :: pieces rest
    else match pieces rest with
      | piece :: others => (c :: piece) :: others
      | [] => [[c]]

/-- The entries of a text, in order. -/
def ofText (text : String) : List AccessEntry :=
  (pieces text.toList).filterMap fun piece => ofPiece? (Text.trim (String.ofList piece))

end AccessEntry

/-! ## §2. Lists. -/

/-- Who asks to be let in. -/
structure Visitor where
  /-- The name of the character. -/
  name : String
  /-- The number of the character. -/
  player : UInt32
  /-- The number of the guild, if the character has one. -/
  guild : Option UInt32
  deriving DecidableEq

/-- A pattern, ready to be matched. -/
structure AccessPattern where
  /-- The pattern for the lower-cased name. -/
  body : List Wildcard
  /-- Whether a match lets in or rejects. -/
  allow : Bool
  deriving DecidableEq

/-- An access list. -/
structure AccessList where
  /-- The text as it was written. -/
  text : String := ""
  /-- The characters named. -/
  players : List UInt32 := []
  /-- The guilds named. -/
  guilds : List UInt32 := []
  /-- The patterns as they were written, lower-cased. -/
  expressions : List String := []
  /-- The patterns, rejections before grants. -/
  patterns : List AccessPattern := []
  deriving DecidableEq, Inhabited

namespace AccessList

/-- The list that lets nobody in. -/
def empty : AccessList := {}

/-- Adds a number that is not there yet, and says whether it was new. -/
def insertNew (ids : List UInt32) (id : UInt32) : Bool × List UInt32 :=
  if ids.contains id then (false, ids) else (true, ids ++ [id])

/-- Adds the character of a name, if there is one, and says whether the character is new. -/
def addPlayer {ρ : Type} [Resolver ρ] (l : AccessList) (name : String) (names : ρ) :
    Bool × AccessList × ρ :=
  match Resolver.resolve names .player name with
  | (some id, names) =>
    let (isNew, players) := insertNew l.players id
    (isNew, { l with players }, names)
  | (none, names) => (false, l, names)

/-- Adds the guild of a name, if there is one, and says whether the guild is new. -/
def addGuild {ρ : Type} [Resolver ρ] (l : AccessList) (name : String) (names : ρ) :
    Bool × AccessList × ρ :=
  match Resolver.resolve names .guild name with
  | (some id, names) =>
    let (isNew, guilds) := insertNew l.guilds id
    (isNew, { l with guilds }, names)
  | (none, names) => (false, l, names)

/-- The pattern in a lower-cased expression; a bare `!` or nothing at all is none.

Every other expression can be made ready to be matched.  An engine for regular expressions may also
decline one for its size alone, and the expression then counts for nothing.  That is left out: the
entries of a list have at most `AccessEntry.maxLength` octets, each of which becomes one place of a
pattern, and the bounds of such engines lie at thousands of these. -/
def patternOf? (expression : List Char) : Option AccessPattern :=
  match expression with
  | [] | ['!'] => none
  | '!' :: body => some ⟨Wildcard.ofText body, false⟩
  | body => some ⟨Wildcard.ofText body, true⟩

/-- Adds a pattern that is not there yet, and says whether it was added. -/
def addExpression (l : AccessList) (text : String) : Bool × AccessList :=
  let expression := Text.lowercase text
  if l.expressions.contains expression then (false, l)
  else match patternOf? expression.toList with
    | none => (false, l)
    | some pattern =>
      let patterns := if pattern.allow then l.patterns ++ [pattern] else pattern :: l.patterns
      (true, { l with patterns, expressions := l.expressions ++ [expression] })

/-- Adds an entry. -/
def addEntry {ρ : Type} [Resolver ρ] (state : AccessList × ρ) (entry : AccessEntry) :
    AccessList × ρ :=
  match entry with
  | .guild name => (state.1.addGuild name state.2).2
  | .player name => (state.1.addPlayer name state.2).2
  | .expression text => ((state.1.addExpression text).2, state.2)

/-- The list of a text. -/
def ofText {ρ : Type} [Resolver ρ] (text : String) (names : ρ) : AccessList × ρ :=
  (AccessEntry.ofText text).foldl addEntry ({ text }, names)

/-- Whether the list lets a visitor in. -/
def admits (l : AccessList) (visitor : Visitor) : Bool :=
  let name := (Text.lowercase visitor.name).toList
  match l.patterns.find? fun p => Wildcard.accepts p.body name with
  | some pattern => pattern.allow
  | none => l.players.contains visitor.player || visitor.guild.any l.guilds.contains

/-- Whether the text is blank. -/
def isEmpty (l : AccessList) : Bool :=
  Text.trim l.text == ""

end AccessList

end Homestead
