/-
  Homestead.Archive.Tables
  ────────────────────────
  **THE TABLES THAT OUTLIVE THE PROGRAM.**

  An archive has five tables.  Its columns hold any signed number of 64
  bits, so reading a row checks that its numbers are in the range of what
  they stand for; the first row out of range makes the whole read fail.

  The tables of characters and guilds refuse a second row with the same
  number, and a second row whose name differs in the case of ASCII letters
  only.  A NUL ends what is compared of a name, apart from its length.  A
  table can be sealed; a sealed table refuses every new row.
-/
import Std.Data.TreeMap
import Homestead.House.NameSource

namespace Homestead

/-! ## §1. Errors. -/

/-- A table of an archive. -/
inductive Table where
  /-- The contents of house tiles. -/
  | tiles
  /-- Owners and rents of houses. -/
  | houses
  /-- Access lists. -/
  | lists
  /-- Characters. -/
  | players
  /-- Guilds. -/
  | guilds
  deriving DecidableEq

/-- The name of a table in the archive. -/
def Table.name : Table → String
  | tiles => "tile_store"
  | houses => "houses"
  | lists => "house_lists"
  | players => "players"
  | guilds => "guilds"

/-- Why an archive does not do what it is asked. -/
inductive ArchiveError where
  /-- The value of a column is taken. -/
  | taken (table : Table) (column : String)
  /-- The table is sealed. -/
  | sealed
  /-- A stored number is out of range. -/
  | outOfRange (table : Table) (column : String) (value : Int)
  /-- The archive declined a call. -/
  | declined (call : String)
  /-- There is no archive in the file. -/
  | notAnArchive
  /-- The file cannot be opened. -/
  | cannotOpen (path : String)
  deriving DecidableEq

/-- The wording of an error. -/
def ArchiveError.message : ArchiveError → String
  | taken table column => "sqlite error: UNIQUE constraint failed: " ++ table.name ++ "." ++ column
  | sealed => "sqlite error: refused"
  | outOfRange table column value =>
    "invalid stored data: " ++ table.name ++ "." ++ column ++ " out of range: " ++ toString value
  | declined call => "store rejected operation: " ++ call ++ " refused"
  | notAnArchive => "sqlite error: file is not a database"
  | cannotOpen path => "sqlite error: unable to open database file: " ++ path

/-! ## §2. Rows. -/

/-- The row of a house, as it is stored. -/
structure StoredHouse where
  /-- Number of the house. -/
  id : Int
  /-- Character who owns it. -/
  owner : Int
  /-- Time up to which the rent is paid. -/
  paid : Int
  /-- Warnings about the rent. -/
  warnings : Int
  /-- Name of the house. -/
  name : String
  /-- Number of its town. -/
  town : Int
  /-- Rent. -/
  rent : Int
  /-- Number of its tiles. -/
  size : Int
  /-- Number of its beds. -/
  beds : Int
  deriving DecidableEq

/-- The row of a house tile. -/
structure TileRow where
  /-- Number of the house. -/
  house : UInt32
  /-- Position and contents of the tile. -/
  data : List UInt8
  deriving DecidableEq

/-- The row of a house. -/
structure HouseRow where
  /-- Number of the house. -/
  id : UInt32
  /-- Character who owns it, 0 for nobody. -/
  owner : UInt32
  /-- Time up to which the rent is paid. -/
  paid : Int
  /-- Warnings about the rent. -/
  warnings : UInt32
  /-- Name of the house. -/
  name : String
  /-- Number of its town. -/
  town : UInt32
  /-- Rent. -/
  rent : UInt32
  /-- Number of its tiles. -/
  size : UInt32
  /-- Number of its beds. -/
  beds : UInt32
  deriving DecidableEq

/-- The row of an access list. -/
structure ListRow where
  /-- Number of the house. -/
  house : UInt32
  /-- Which list of the house it is. -/
  list : UInt32
  /-- The text of the list. -/
  text : String
  deriving DecidableEq

/-- The row as it is stored. -/
def HouseRow.stored (row : HouseRow) : StoredHouse :=
  { id := row.id.toNat, owner := row.owner.toNat, paid := row.paid, warnings := row.warnings.toNat,
    name := row.name, town := row.town.toNat, rent := row.rent.toNat, size := row.size.toNat,
    beds := row.beds.toNat }

/-- A stored number as an unsigned number of 32 bits. -/
def readColumn (table : Table) (column : String) (value : Int) : Except ArchiveError UInt32 :=
  if 0 ≤ value && value ≤ 4294967295 then .ok (UInt32.ofNat value.toNat)
  else .error (.outOfRange table column value)

/-- Reads a row of the table of houses. -/
def StoredHouse.read (row : StoredHouse) : Except ArchiveError HouseRow := do
  return {
    id := ← readColumn .houses "id" row.id
    owner := ← readColumn .houses "owner" row.owner
    paid := row.paid
    warnings := ← readColumn .houses "warnings" row.warnings
    name := row.name
    town := ← readColumn .houses "town_id" row.town
    rent := ← readColumn .houses "rent" row.rent
    size := ← readColumn .houses "size" row.size
    beds := ← readColumn .houses "beds" row.beds }

/-! ## §3. Tables. -/

/-- The tables of an archive. -/
structure Tables where
  /-- Contents of house tiles, in the order in which they were stored. -/
  tiles : List (Int × List UInt8) := []
  /-- Houses by number. -/
  houses : Std.TreeMap Int StoredHouse := {}
  /-- Access lists, in the order in which they were stored. -/
  lists : List (Int × Int × String) := []
  /-- Characters. -/
  players : List (Int × String) := []
  /-- Guilds. -/
  guilds : List (Int × String) := []
  /-- The tables that refuse new rows. -/
  seals : List Table := []

namespace Tables

/-- The archive without rows. -/
def empty : Tables := {}

/-- Whether a table refuses new rows. -/
def isSealed (t : Tables) (table : Table) : Bool :=
  t.seals.contains table

/-- The tables once another one is sealed. -/
def close (t : Tables) (table : Table) : Tables :=
  { t with seals := table :: t.seals }

/-! ### Rows as they are. -/

/-- Adds a row of a house tile. -/
def insertTile (t : Tables) (house : Int) (data : List UInt8) : Except ArchiveError Tables :=
  if t.isSealed .tiles then .error .sealed
  else .ok { t with tiles := t.tiles ++ [(house, data)] }

/-- Adds a row of an access list. -/
def insertList (t : Tables) (house list : Int) (text : String) : Except ArchiveError Tables :=
  if t.isSealed .lists then .error .sealed
  else .ok { t with lists := t.lists ++ [(house, list, text)] }

/-- Adds a row of a house with a new number. -/
def insertHouse (t : Tables) (row : StoredHouse) : Except ArchiveError Tables :=
  if t.isSealed .houses then .error .sealed
  else if t.houses.contains row.id then .error (.taken .houses "id")
  else .ok { t with houses := t.houses.insert row.id row }

/-- What two names have to share to be the same: the text up to the first NUL, the case of ASCII
letters ignored, and the length in octets. -/
def nameKey (name : String) : String × Nat :=
  (Text.lowerAscii (String.ofList (name.toList.takeWhile (· != '\x00'))), name.utf8ByteSize)

/-- Adds a row to the table of characters or guilds. -/
def insertName (table : Table) (rows : List (Int × String)) (id : Int) (name : String) :
    Except ArchiveError (List (Int × String)) :=
  if rows.any (·.1 == id) then .error (.taken table "id")
  else if rows.any fun row => nameKey row.2 == nameKey name then
    .error (.taken table "name")
  else .ok (rows ++ [(id, name)])

/-- Adds a character. -/
def insertPlayer (t : Tables) (id : Int) (name : String) : Except ArchiveError Tables := do
  return { t with players := ← insertName .players t.players id name }

/-- Adds a guild. -/
def insertGuild (t : Tables) (id : Int) (name : String) : Except ArchiveError Tables := do
  return { t with guilds := ← insertName .guilds t.guilds id name }

/-! ### Reading. -/

/-- The rows of house tiles, in the order in which they were stored. -/
def tileRows (t : Tables) : Except ArchiveError (List TileRow) :=
  t.tiles.mapM fun (house, data) => do
    return { house := ← readColumn .tiles "house_id" house, data }

/-- The rows of houses, by number. -/
def houseRows (t : Tables) : Except ArchiveError (List HouseRow) :=
  t.houses.values.mapM StoredHouse.read

/-- The rows of access lists, in the order in which they were stored. -/
def listRows (t : Tables) : Except ArchiveError (List ListRow) :=
  t.lists.mapM fun (house, list, text) => do
    return {
      house := ← readColumn .lists "house_id" house
      list := ← readColumn .lists "listid" list
      text }

/-- The number stored with a name; a number that no character or guild can have is none. -/
def findName (rows : List (Int × String)) (name : String) : Option UInt32 :=
  let key := nameKey name
  match rows.find? fun row => nameKey row.2 == key with
  | some (id, _) =>
    if 0 ≤ id && id ≤ 4294967295 then some (UInt32.ofNat id.toNat) else none
  | none => none

/-- The names of the archive as a name source. -/
def names (t : Tables) : NameSource where
  find?
    | .player, name => findName t.players name
    | .guild, name => findName t.guilds name

end Tables

end Homestead
