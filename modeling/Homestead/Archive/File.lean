/-
  Homestead.Archive.File
  ──────────────────────
  **AN ARCHIVE AS A RUN OF OCTETS.**

  A file starts with a mark.  Behind it stand the tables in one order, each
  as the number of its rows and the rows.  A signed number takes eight
  octets in two's complement; a text or a run of octets has its length in
  four octets in front.  A file that reads in another way, or that goes on
  behind the last table, is no archive.
-/
import Homestead.Archive.Tables
import Homestead.Stream.Datum

open Homestead.Stream

namespace Homestead

namespace ArchiveFile

/-- The octets that every archive starts with. -/
def mark : List UInt8 :=
  Text.utf8Octets "homestead archive 1\n".toList

/-! ## §1. Writing. -/

/-- The octets of a signed number. -/
def number (n : Int) : List UInt8 :=
  littleEndian 8 (n % 18446744073709551616).toNat

/-- A run of octets behind its length. -/
def block (octets : List UInt8) : List UInt8 :=
  littleEndian 4 octets.length ++ octets

/-- The octets of a text. -/
def text (s : String) : List UInt8 :=
  block (Text.utf8Octets s.toList)

/-- The rows of a table behind their number. -/
def rows {α : Type} (row : α → List UInt8) (as : List α) : List UInt8 :=
  littleEndian 4 as.length ++ as.flatMap row

/-- The row of a house. -/
def house (h : StoredHouse) : List UInt8 :=
  [h.id, h.owner, h.paid, h.warnings, h.town, h.rent, h.size, h.beds].flatMap number ++ text h.name

/-- The row of a character or guild. -/
def named (row : Int × String) : List UInt8 :=
  number row.1 ++ text row.2

/-- The tables, in the order in which a file names them. -/
def tableOrder : List Table :=
  [.tiles, .houses, .lists, .players, .guilds]

/-- A table that refuses new rows. -/
def sealedTable (table : Table) : List UInt8 :=
  littleEndian 1 (tableOrder.idxOf table)

/-! ## §2. Reading. -/

/-- A step that reads a part of a file. -/
abbrev Read := StateT Reader Option

/-- Reads a count. -/
def readCount : Read Nat :=
  Reader.number 4

/-- Reads a signed number. -/
def readNumber : Read Int := do
  let n ← (Reader.number 8 : Read Nat)
  return if n < 9223372036854775808 then n else n - 18446744073709551616

/-- Reads a run of octets. -/
def readBlock : Read (List UInt8) := do
  Reader.take (← readCount)

/-- Reads a text. -/
def readText : Read String := do
  return Text.ofOctets (← readBlock)

/-- Reads so many rows. -/
def readTimes {α : Type} (row : Read α) : Nat → Read (List α)
  | 0 => return []
  | n + 1 => do
    let a ← row
    return a :: (← readTimes row n)

/-- Reads the rows of a table. -/
def readRows {α : Type} (row : Read α) : Read (List α) := do
  readTimes row (← readCount)

/-- Reads the row of a house. -/
def readHouse : Read StoredHouse := do
  return {
    id := ← readNumber
    owner := ← readNumber
    paid := ← readNumber
    warnings := ← readNumber
    town := ← readNumber
    rent := ← readNumber
    size := ← readNumber
    beds := ← readNumber
    name := ← readText }

/-- Reads the row of a character or guild. -/
def readNamed : Read (Int × String) := do
  return (← readNumber, ← readText)

/-- Reads a table that refuses new rows. -/
def readSealedTable : Read Table := do
  let i ← (Reader.number 1 : Read Nat)
  (tableOrder[i]? : Option Table)

/-- Passes the mark at the start of a file. -/
def readMark : Read Unit := do
  guard ((← Reader.take mark.length) == mark)

/-- Reads the tables. -/
def readTables : Read Tables := do
  readMark
  return {
    tiles := ← readRows (return (← readNumber, ← readBlock))
    houses := .ofList ((← readRows readHouse).map fun h => (h.id, h))
    lists := ← readRows (return (← readNumber, ← readNumber, ← readText))
    players := ← readRows readNamed
    guilds := ← readRows readNamed
    seals := ← readRows readSealedTable }

end ArchiveFile

open ArchiveFile

/-- The octets of a file with these tables. -/
def Tables.octets (t : Tables) : List UInt8 :=
  mark
    ++ rows (fun (house, data) => number house ++ block data) t.tiles
    ++ rows house t.houses.values
    ++ rows (fun (house, list, s) => number house ++ number list ++ text s) t.lists
    ++ rows named t.players
    ++ rows named t.guilds
    ++ rows sealedTable t.seals

/-- The tables in the octets of a file, if it is an archive. -/
def Tables.ofOctets? (octets : List UInt8) : Option Tables :=
  match readTables.run (Reader.ofOctets octets) with
  | some (t, r) => if r.rest.isEmpty then some t else none
  | none => none

end Homestead
