/-
  Homestead.House.NameSource
  ──────────────────────────
  **WHO IS WHO: FROM NAMES TO NUMBERS.**

  A name source knows the numbers of characters and guilds by name.  How
  two spellings of one name are told to be the same is up to the source: a
  table compares full lower-case forms, the tables of an archive compare
  with the case of ASCII letters ignored.

  Looking a name up may change the source (a cache remembers the answer),
  so a lookup gives back the source for the next one.
-/
import Homestead.Text.Lowercase

namespace Homestead

/-! ## §1. Lookups. -/

/-- What a name may name. -/
inductive NameKind where
  /-- A character. -/
  | player
  /-- A guild. -/
  | guild
  deriving DecidableEq

/-- The types that names can be looked up in. -/
class Resolver (ρ : Type) where
  /-- The number that a name has, and the source for the next lookup. -/
  resolve : ρ → NameKind → String → Option UInt32 × ρ

/-! ## §2. Sources that do not change. -/

/-- A fixed pair of lookups. -/
structure NameSource where
  /-- The number that a name has. -/
  find? : NameKind → String → Option UInt32

instance : Resolver NameSource where
  resolve source kind name := (source.find? kind name, source)

namespace NameSource

/-- The rows by lower-case name, the last one first. -/
def keyed (rows : List (UInt32 × String)) : List (String × UInt32) :=
  rows.reverse.map fun (id, name) => (Text.lowercase name, id)

/-- The source of two lists of rows; of rows with the same lower-case name the last one counts. -/
def ofRows (players guilds : List (UInt32 × String)) : NameSource :=
  let players := keyed players
  let guilds := keyed guilds
  { find? := fun
      | .player, name => players.lookup (Text.lowercase name)
      | .guild, name => guilds.lookup (Text.lowercase name) }

end NameSource

end Homestead
