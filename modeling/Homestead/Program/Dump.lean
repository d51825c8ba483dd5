/-
  Homestead.Program.Dump
  ──────────────────────
  **THE ROWS OF HOUSE TILES AS TEXT.**

  The dump prints a line for each stored tile, or for those of one house,
  and a last line that counts them.
-/
import Homestead.Program.Host
import Homestead.Text.Base64
import Homestead.Text.Numeral
import Homestead.World.Restore

open Homestead.Stream

namespace Homestead.Program.Dump

open Host

/-- Where a stored tile lies and how many items it has. -/
def describe (data : List UInt8) : String :=
  match World.Restoring.readHead (Reader.ofOctets data) with
  | some ((p, count), _) =>
    s!"[{p.x.toNat},{p.y.toNat},{p.z.toNat}] items={count.toNat}"
  | none => "[bad header]"

/-- The line of a row. -/
def line (row : TileRow) : String :=
  s!"house={row.house.toNat} " ++ describe row.data ++ s!" bytes={row.data.length} data="
    ++ Text.base64 row.data

/-- Why arguments are refused. -/
inductive ArgumentError where
  /-- There is no archive. -/
  | usage
  /-- The number of the house is none. -/
  | badHouse
  deriving DecidableEq

/-- The wording of an error. -/
def ArgumentError.message : ArgumentError → String
  | usage => "usage: tile_store_dump <world.db> [house_id]"
  | badHouse => "tile_store_dump: house id must be a number"

/-- What to dump. -/
structure Arguments where
  /-- The archive. -/
  archive : String
  /-- The house whose tiles are wanted, all if none is given. -/
  house : Option UInt32
  deriving DecidableEq

/-- Reads the arguments, the name of the program in front. -/
def Arguments.read : List String → Except ArgumentError Arguments
  | _ :: archive :: house :: _ =>
    match Text.boundedNumeral? 4294967296 house with
    | some n => .ok { archive, house := some (UInt32.ofNat n) }
    | none => .error .badHouse
  | [_, archive] => .ok { archive, house := none }
  | _ => .error .usage

/-- The rows that are wanted. -/
def wanted (args : Arguments) (rows : List TileRow) : List TileRow :=
  rows.filter fun row => args.house.all (· == row.house)

variable {m : Type → Type} [Monad m] [Host m]

/-- Prints rows; gives the exit code. -/
def printRows (args : Arguments) (rows : List TileRow) : m UInt32 := do
  let shown := wanted args rows
  shown.forM fun row => print (line row)
  print s!"rows: {shown.length} of {rows.length}"
  return 0

/-- Says why there is nothing to print; gives the exit code. -/
def fail (e : ArchiveError) : m UInt32 := do
  warn ("tile_store_dump: " ++ e.message)
  return 1

/-- Runs the dump; gives the exit code. -/
def run (args : List String) : m UInt32 := do
  match Arguments.read args with
  | .error e =>
    warn e.message
    return 2
  | .ok args =>
    match ← openArchive args.archive with
    | .error e => fail e
    | .ok tables =>
      match tables.tileRows with
      | .error e => fail e
      | .ok rows => printRows args rows

end Homestead.Program.Dump
