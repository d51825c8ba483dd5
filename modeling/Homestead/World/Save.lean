/-
  Homestead.World.Save
  ────────────────────
  **HOUSE TILES ARE PUT AWAY.**

  Of the items on a house tile those are saved that the map could not give
  back as they are: what moves, what is written on, doors, beds, and
  containers with something in them.  A tile with nothing to save has no
  row.  All rows are replaced in one transaction.
-/
import Homestead.Archive.Store
import Homestead.Record.Encode
import Homestead.World.Basic
import Homestead.World.Notice

open Homestead.Stream

namespace Homestead

/-! ## §1. Tiles. -/

/-- Whether an item with its contents is saved. -/
def ItemTree.isSaved (c : Catalog) (t : ItemTree) : Bool :=
  ((c.get? t.item.typeId).map fun type => type.moveable || type.writable).getD false
    || t.item.isDoor || t.item.isBed || (t.item.isContainer && !t.contents.isEmpty)

namespace World

/-- The items of a tile that are saved. -/
def savedTrees (w : World) (p : Position) : List ItemTree :=
  ((w.graph.contents (.tile p)).filterMap w.graph.tree?).filter (·.isSaved w.catalog)

/-- The octets of a tile with so many items. -/
def tileOctets (c : Catalog) (p : Position) (trees : List ItemTree) : List UInt8 :=
  littleEndian 2 p.x.toNat ++ littleEndian 2 p.y.toNat ++ littleEndian 1 p.z.toNat
    ++ littleEndian 4 trees.length ++ ItemTree.encodeAll c trees

/-- A tile as it is saved. -/
structure SavedTile where
  /-- The house of the tile. -/
  house : UInt32
  /-- How many items lie on it that are saved. -/
  items : Nat
  /-- The octets of its row. -/
  octets : List UInt8

/-- A tile as it is saved, unless there is nothing to save. -/
def saveTile? (w : World) (house : UInt32) (p : Position) : Option SavedTile :=
  let trees := w.savedTrees p
  if trees.isEmpty then none
  else some { house, items := trees.length, octets := tileOctets w.catalog p trees }

/-! ## §2. All houses. -/

/-- The tiles to save, by house and in the order in which the house has them. -/
def savedTiles (w : World) : List SavedTile :=
  w.houses.values.flatMap fun h => h.tiles.filterMap (w.saveTile? h.id)

/-- The rows of house tiles. -/
def tileRows (w : World) : List TileRow :=
  w.savedTiles.map fun t => { house := t.house, data := t.octets }

/-- The sum of a number over tiles. -/
def SavedTile.sum (f : SavedTile → Nat) : List SavedTile → Nat
  | [] => 0
  | t :: ts => f t + sum f ts

/-- The report of saving the house tiles. -/
def saveReport (w : World) : SaveReport :=
  let tiles := w.savedTiles
  { tiles := tiles.length
    items := SavedTile.sum (·.items) tiles
    octets := SavedTile.sum (·.octets.length) tiles }

/-- Saves the house tiles. -/
def saveItems (w : World) (a : Archive) : Except ArchiveError (SaveReport × Archive) := do
  let a ← a.transact [.clearTiles, .insertTiles w.tileRows]
  return (w.saveReport, a)

end World

end Homestead
