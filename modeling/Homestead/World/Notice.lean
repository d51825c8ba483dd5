/-
  Homestead.World.Notice
  ──────────────────────
  **WHAT THE WORLD HAS TO REPORT.**

  Loading and saving go on past rows and items that they can do nothing
  with, and say so in notices.  A notice belongs to one of three channels
  and has one wording.
-/
import Homestead.Record.Build

namespace Homestead

/-! ## §1. Reports. -/

/-- What became of the rows of house tiles. -/
structure LoadReport where
  /-- Rows read. -/
  rows : Nat := 0
  /-- Rows for tiles that are not on the map. -/
  skipped : Nat := 0
  /-- Rows that could not be read to their end. -/
  failed : Nat := 0
  /-- Records that went to an item of the map. -/
  matched : Nat := 0
  /-- Records of items that do not move and are not on the map any more. -/
  throwaway : Nat := 0
  /-- Items made and let go. -/
  items : Tally := {}
  deriving DecidableEq

/-- What was saved of the house tiles. -/
structure SaveReport where
  /-- Tiles. -/
  tiles : Nat := 0
  /-- Items that lie on them. -/
  items : Nat := 0
  /-- Octets. -/
  octets : Nat := 0
  deriving DecidableEq

/-- What was loaded or saved of the houses. -/
structure HouseReport where
  /-- Houses. -/
  houses : Nat := 0
  /-- Access lists. -/
  lists : Nat := 0
  /-- Rows of houses that are not on the map. -/
  unknown : Nat := 0
  deriving DecidableEq

/-! ## §2. Notices. -/

/-- Where a notice is written. -/
inductive Channel where
  /-- What went wrong. -/
  | error
  /-- The game at large. -/
  | game
  /-- Houses. -/
  | houses
  deriving DecidableEq

/-- A notice. -/
inductive Notice where
  /-- The map has an item whose type cannot be used. -/
  | unusableType (id : TypeId)
  /-- The map has an item on a house tile that could be carried off. -/
  | droppedMoveable (id : TypeId) (house : UInt32) (position : Position)
  /-- The map has been loaded. -/
  | mapLoaded (name : String) (tiles items houses unknown : Nat)
  /-- Names have been looked up. -/
  | namesResolved (hits misses : Nat)
  /-- A row of a house tile has no room for its head. -/
  | shortRow (house : UInt32) (octets : Nat)
  /-- A row is for a tile that is not on the map. -/
  | missingTile (house : UInt32) (position : Position)
  /-- A row could not be read to its end. -/
  | badRecord (house : UInt32) (position : Position) (index count : Nat)
      (e : Record.DecodeError)
  /-- A sleeper's bed is not on the map any more. -/
  | releasedBed (sleeper : UInt32)
  /-- The house tiles have been loaded. -/
  | itemsLoaded (report : LoadReport)
  /-- The house tiles have been saved. -/
  | itemsSaved (report : SaveReport)
  /-- Rows are for houses that are not on the map. -/
  | strangeHouses (rows : Nat)
  /-- The houses have been saved. -/
  | housesSaved (report : HouseReport)
  /-- Something could not be saved. -/
  | saveFailed
  deriving DecidableEq

namespace Notice

/-- Where the notice is written. -/
def channel : Notice → Channel
  | unusableType _ | shortRow _ _ | badRecord _ _ _ _ _ | saveFailed => .error
  | mapLoaded _ _ _ _ _ | namesResolved _ _ => .game
  | _ => .houses

/-- The wording of the notice. -/
def message : Notice → String
  | unusableType id => s!"map references unknown item type {id.toNat}"
  | droppedMoveable id house p =>
    s!"dropping moveable item {id.toNat} on house {house.toNat} tile {p.text}"
  | mapLoaded name tiles items houses unknown =>
    "map '" ++ name ++ s!"' loaded: tiles={tiles}, items={items}, houses={houses}, "
      ++ s!"unknown={unknown}"
  | namesResolved hits misses => s!"name lookups: hits={hits}, misses={misses}"
  | shortRow house octets =>
    s!"house {house.toNat} tile row too short for a header ({octets} bytes)"
  | missingTile house p => s!"house {house.toNat} row for missing tile {p.text} skipped"
  | badRecord house p index count e =>
    s!"house {house.toNat} tile {p.text} item {index}/{count}: " ++ e.message
  | releasedBed sleeper =>
    s!"released bed of sleeper {sleeper.toNat}: bed no longer on the map"
  | itemsLoaded r =>
    s!"house items loaded: rows={r.rows}, skipped={r.skipped}, failed={r.failed}, "
      ++ s!"created={r.items.created}, matched={r.matched}, discarded={r.items.discarded}"
  | itemsSaved r => s!"house items saved: tiles={r.tiles}, items={r.items}, bytes={r.octets}"
  | strangeHouses rows => s!"{rows} stored house row(s) reference houses missing from the map"
  | housesSaved r => s!"house info saved: houses={r.houses}, lists={r.lists}"
  | saveFailed => "save finished with errors"

end Notice

end Homestead
