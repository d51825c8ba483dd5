/-
  Homestead.Archive.Store
  ───────────────────────
  **THE ARCHIVE IN USE: READS, AND WRITES THAT ARE ALL OR NOTHING.**

  Every write happens in a transaction: a working copy of the tables that
  statements change one after another, and that takes the place of the
  tables when it is committed.  A statement that fails changes nothing.
  Until it is committed a working copy shows nowhere, so leaving it is all
  that undoing takes.

  An archive may decline any call.  Which ones it declines is a rule that
  comes with it, so that whatever holds for every rule holds at whatever
  point the archive gives up.
-/
import Homestead.Archive.Tables

namespace Homestead

/-! ## §1. Calls. -/

/-- What an archive is asked to do. -/
inductive ArchiveCall where
  /-- Give the rows of house tiles. -/
  | tileRows
  /-- Give the rows of houses. -/
  | houseRows
  /-- Give the rows of access lists. -/
  | listRows
  /-- Start a transaction. -/
  | begin
  /-- Remove every row of a house tile. -/
  | clearTiles
  /-- Add rows of house tiles. -/
  | insertTiles (rows : List TileRow)
  /-- Remove every row of an access list. -/
  | clearLists
  /-- Add the row of a house, or replace the one with its number. -/
  | upsertHouse (row : HouseRow)
  /-- Add rows of access lists. -/
  | insertLists (rows : List ListRow)
  /-- End a transaction and keep what it did. -/
  | commit
  deriving DecidableEq

/-- The name of a call. -/
def ArchiveCall.name : ArchiveCall → String
  | tileRows => "tile_rows"
  | houseRows => "house_rows"
  | listRows => "house_list_rows"
  | begin => "begin"
  | clearTiles => "clear_tile_rows"
  | insertTiles _ => "insert_tile_rows"
  | clearLists => "clear_house_lists"
  | upsertHouse _ => "upsert_house"
  | insertLists _ => "insert_house_lists"
  | commit => "commit"

namespace Tables

/-- The tables after a statement; a call that is no statement leaves them alone. -/
def execute (t : Tables) : ArchiveCall → Except ArchiveError Tables
  | .clearTiles => .ok { t with tiles := [] }
  | .insertTiles rows =>
    if rows.isEmpty then .ok t
    else if t.isSealed .tiles then .error .sealed
    else .ok { t with tiles := t.tiles ++ rows.map fun row => ((row.house.toNat : Int), row.data) }
  | .clearLists => .ok { t with lists := [] }
  | .upsertHouse row =>
    if t.isSealed .houses then .error .sealed
    else .ok { t with houses := t.houses.insert row.stored.id row.stored }
  | .insertLists rows =>
    if rows.isEmpty then .ok t
    else if t.isSealed .lists then .error .sealed
    else .ok { t with
      lists := t.lists ++ rows.map fun row =>
        ((row.house.toNat : Int), (row.list.toNat : Int), row.text) }
  | _ => .ok t

end Tables

/-! ## §2. The archive. -/

/-- An archive: its tables, and the calls that it declines with the reason. -/
structure Archive where
  /-- The tables. -/
  tables : Tables := {}
  /-- The reason for which a call is declined. -/
  declines : ArchiveCall → Option ArchiveError := fun _ => none

namespace Archive

/-- Passes a call that the archive does not decline. -/
def ask (a : Archive) (call : ArchiveCall) : Except ArchiveError Unit :=
  match a.declines call with
  | some e => .error e
  | none => .ok ()

/-- The archive that declines the calls of one name. -/
def without (a : Archive) (name : String) : Archive :=
  { a with declines := fun call =>
      if call.name = name then some (.declined name) else a.declines call }

/-- The rows of house tiles. -/
def tileRows (a : Archive) : Except ArchiveError (List TileRow) := do
  a.ask .tileRows
  a.tables.tileRows

/-- The rows of houses. -/
def houseRows (a : Archive) : Except ArchiveError (List HouseRow) := do
  a.ask .houseRows
  a.tables.houseRows

/-- The rows of access lists. -/
def listRows (a : Archive) : Except ArchiveError (List ListRow) := do
  a.ask .listRows
  a.tables.listRows

/-- Executes a statement on a working copy. -/
def execute (a : Archive) (working : Tables) (call : ArchiveCall) : Except ArchiveError Tables := do
  a.ask call
  working.execute call

/-- The archive after a transaction of statements; when any call is declined or fails, there is
no archive after it, and the old one stands. -/
def transact (a : Archive) (statements : List ArchiveCall) : Except ArchiveError Archive := do
  a.ask .begin
  let working ← statements.foldlM a.execute a.tables
  a.ask .commit
  return { a with tables := working }

end Archive

end Homestead
