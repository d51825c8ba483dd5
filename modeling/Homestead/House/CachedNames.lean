/-
  Homestead.House.CachedNames
  ───────────────────────────
  **A MEMORY IN FRONT OF A NAME SOURCE.**

  The memory holds the latest answers by lower-case name, for characters
  and guilds apart, and forgets the name that was asked for longest ago
  when it is full.  That a name is unknown is an answer too.

  Each memory is a map with room for so many keys in which the least
  recently used one makes way.  What such maps are documented to do is what
  is followed here, and nothing beyond it:
    * looking up a key that is there gives its value and makes the key the
      latest used;
    * looking up a key that is not there changes nothing;
    * putting in a key with a value makes it the latest used; if it was
      there, it has the new value, and no other key is touched; if it was
      not there and the map is full, the key whose last use is longest ago
      is dropped, and that one only.
  A memory is kept as the list of its entries by last use, so `remember` is
  both what a lookup does to a key that is there and what putting one in
  does.
-/
import Homestead.House.NameSource

namespace Homestead

/-! ## §1. One memory. -/

/-- Answers by name, the most recently asked first. -/
abbrev RecentAnswers := List (String × Option UInt32)

namespace RecentAnswers

/-- The answer that is remembered for a key.  The memory is not changed by looking; what a lookup
does to the order of its keys is `remember`. -/
def answer? (recent : RecentAnswers) (key : String) : Option (Option UInt32) :=
  (recent.find? (·.1 == key)).map (·.2)

/-- Moves an answer to the front, or puts a new one there, and keeps `capacity` answers: where the
key is new and the memory full, the last of the list is the one that was used longest ago. -/
def remember (recent : RecentAnswers) (capacity : Nat) (key : String) (answer : Option UInt32) :
    RecentAnswers :=
  ((key, answer) :: recent.filter (·.1 != key)).take capacity

end RecentAnswers

/-! ## §2. The cached source. -/

/-- A name source with a memory for each kind of name. -/
structure CachedNames (ρ : Type) where
  /-- The source that is asked when the memory has no answer. -/
  inner : ρ
  /-- How many answers each memory holds. -/
  capacity : Nat
  /-- Answers for characters. -/
  players : RecentAnswers := []
  /-- Answers for guilds. -/
  guilds : RecentAnswers := []
  /-- Lookups that the memory answered. -/
  hits : Nat := 0
  /-- Lookups that the source was asked for. -/
  misses : Nat := 0

namespace CachedNames

variable {ρ : Type}

/-- How many answers a memory holds unless it is told otherwise. -/
def defaultCapacity : Nat := 512

/-- An empty memory in front of a source; it holds at least one answer. -/
def ofSource (inner : ρ) (capacity : Nat := defaultCapacity) : CachedNames ρ :=
  { inner, capacity := max 1 capacity }

/-- The answers of one kind. -/
def recent (c : CachedNames ρ) : NameKind → RecentAnswers
  | .player => c.players
  | .guild => c.guilds

/-- Remembers an answer of one kind. -/
def remember (c : CachedNames ρ) (kind : NameKind) (key : String) (answer : Option UInt32) :
    CachedNames ρ :=
  match kind with
  | .player => { c with players := c.players.remember c.capacity key answer }
  | .guild => { c with guilds := c.guilds.remember c.capacity key answer }

/-- Looks a name up, in the memory first. -/
def resolve [Resolver ρ] (c : CachedNames ρ) (kind : NameKind) (name : String) :
    Option UInt32 × CachedNames ρ :=
  let key := Text.lowercase name
  match (c.recent kind).answer? key with
  | some answer =>
    let c := c.remember kind key answer
    (answer, { c with hits := c.hits + 1 })
  | none =>
    let (answer, inner) := Resolver.resolve c.inner kind name
    let c := c.remember kind key answer
    (answer, { c with inner, misses := c.misses + 1 })

instance [Resolver ρ] : Resolver (CachedNames ρ) where
  resolve := resolve

end CachedNames

end Homestead
