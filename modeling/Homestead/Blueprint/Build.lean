/-
  Homestead.Blueprint.Build
  ─────────────────────────
  **FROM THE DRAWING TO THE WORLD.**

  Houses are entered first, then tiles in order, each with its items.  An
  item whose type cannot be used is left out with all that it holds.  On a
  house tile an item that moves is left out too: such items come from the
  archive.  Doors and beds on house tiles are registered with the house.

  What was counted and noted on the way is kept also when building fails.
-/
import Homestead.Blueprint.Basic
import Homestead.World.Basic
import Homestead.World.Notice

namespace Homestead

/-! ## §1. Errors and reports. -/

/-- Why a blueprint gives no world. -/
inductive BlueprintError where
  /-- Two houses have one number. -/
  | houseTwice (id : UInt32)
  /-- Two tiles have one position. -/
  | tileTwice (position : Position)
  /-- A tile belongs to a house that is not there. -/
  | unknownHouse (position : Position) (house : UInt32)
  /-- Something that is no door has the number of one. -/
  | doorNumberRefused (typeId : TypeId)
  /-- The number of a door is too great. -/
  | doorNumberTooGreat (typeId : TypeId) (number : UInt32)
  /-- Something that is no teleport leads somewhere. -/
  | destinationRefused (typeId : TypeId)
  /-- An item does not hold what it should. -/
  | contents (typeId : TypeId) (e : GraphError)
  /-- A tile does not hold what it should. -/
  | tile (position : Position) (e : GraphError)
  deriving DecidableEq

/-- The wording of an error. -/
def BlueprintError.message : BlueprintError → String
  | houseTwice id => s!"map declares house {id.toNat} twice"
  | tileTwice p => s!"map declares tile {p.text} twice"
  | unknownHouse p house => s!"tile {p.text} references unknown house {house.toNat}"
  | doorNumberRefused id => s!"door id set on non-door item {id.toNat}"
  | doorNumberTooGreat id number =>
    s!"door id {number.toNat} on item {id.toNat} is out of range (1-255)"
  | destinationRefused id => s!"destination set on non-teleport item {id.toNat}"
  | contents id e => s!"item {id.toNat} contents: " ++ e.message
  | tile p e => s!"tile {p.text}: " ++ e.message

/-- What became of the entries of a blueprint. -/
structure BuildReport where
  /-- Tiles made. -/
  tiles : Nat := 0
  /-- Items made. -/
  items : Nat := 0
  /-- Items left out because of their type. -/
  unknown : Nat := 0
  /-- Items left out because they move. -/
  dropped : Nat := 0
  deriving DecidableEq

/-- What is kept while a blueprint is built. -/
structure Draft where
  /-- The report so far. -/
  report : BuildReport := {}
  /-- The notices so far. -/
  notices : List Notice := []

/-- A step of building. -/
abbrev Drafting := ExceptT BlueprintError (StateM Draft)

namespace Drafting

/-- Adds to the report. -/
def count (f : BuildReport → BuildReport) : Drafting Unit :=
  modify fun d => { d with report := f d.report }

/-- Adds a notice. -/
def note (n : Notice) : Drafting Unit :=
  modify fun d => { d with notices := d.notices ++ [n] }

end Drafting

open Drafting

/-! ## §2. Items. -/

/-- A new door with the number that it has in its house, 0 for none. -/
def Item.withDoorNumber (i : Item) (number : UInt32) : Except BlueprintError Item :=
  if number = 0 then .ok i
  else if !i.isDoor then .error (.doorNumberRefused i.typeId)
  else if number > 255 then .error (.doorNumberTooGreat i.typeId number)
  else .ok (i.setDoorId number.toUInt8)

/-- A new teleport with the place that it leads to, if it leads anywhere. -/
def Item.withDestination (i : Item) (destination : Option Position) : Except BlueprintError Item :=
  match destination with
  | none => .ok i
  | some p =>
    if i.variant.isTeleport then .ok { i with variant := i.variant.setDestination p }
    else .error (.destinationRefused i.typeId)

/-- A new item with all that is drawn of it. -/
def ItemSketch.finish (s : ItemSketch) (i : Item) : Except BlueprintError Item := do
  let i := if s.actionId ≠ 0 then i.setNumber .actionId s.actionId.toNat else i
  let i ← i.withDoorNumber s.doorId
  let i := match s.text with
    | some text => i.setText .text text
    | none => i
  i.withDestination s.destination

mutual

/-- Makes the item of an entry and what it holds, unless its type cannot be used. -/
def ItemEntry.build (c : Catalog) : ItemEntry → Drafting (Option ItemTree)
  | .mk sketch contents =>
    match Item.create? c sketch.typeId sketch.count with
    | none => do
      count fun r => { r with unknown := r.unknown + 1 }
      note (.unusableType sketch.typeId)
      return none
    | some new => do
      let item ← MonadExcept.ofExcept (sketch.finish new)
      count fun r => { r with items := r.items + 1 }
      let trees ← ItemEntry.buildContents c item contents
      return some (.node item trees)

/-- Makes what an item holds. -/
def ItemEntry.buildContents (c : Catalog) (holder : Item) :
    List ItemEntry → Drafting (List ItemTree)
  | [] => return []
  | entry :: rest => do
    match ← ItemEntry.build c entry with
    | none => ItemEntry.buildContents c holder rest
    | some tree =>
      if !holder.isContainer then throw (.contents holder.typeId .notAContainer)
      let trees ← ItemEntry.buildContents c holder rest
      return tree :: trees

end

/-! ## §3. Houses and tiles. -/

namespace World

/-- Enters a house. -/
def enterHouse (w : World) (e : HouseEntry) : Drafting World := do
  if (w.house? e.id).isSome then throw (.houseTwice e.id)
  let h : House := { id := e.id, name := e.name, entry := e.entry, town := e.town, rent := e.rent }
  return { w with houses := w.houses.insert e.id h }

/-- Whether items of a tree's type move. -/
def isMoveable (w : World) (t : ItemTree) : Bool :=
  ((w.catalog.get? t.item.typeId).map (·.moveable)).getD false

/-- Puts an item on a tile, and registers it with the tile's house. -/
def enterTree (w : World) (p : Position) (house : Option UInt32) (t : ItemTree) :
    Drafting World := do
  let (id, graph) := w.graph.create t
  let w := { w with graph }
  let w := match house with
    | some house => w.updateHouse house fun h g => h.addFixture g id
    | none => w
  match w.graph.add (.tile p) id with
  | .ok graph => return { w with graph }
  | .error e => throw (.tile p e)

/-- Makes an entry of a tile and puts it there, unless it is left out. -/
def enterItem (p : Position) (house : Option UInt32) (w : World) (entry : ItemEntry) :
    Drafting World := do
  match ← entry.build w.catalog with
  | none => return w
  | some tree =>
    match house with
    | some number =>
      if w.isMoveable tree then
        count fun r => { r with dropped := r.dropped + 1 }
        note (.droppedMoveable entry.sketch.typeId number p)
        return w
      else w.enterTree p house tree
    | none => w.enterTree p house tree

/-- Adds a tile to its house. -/
def claimTile (w : World) (p : Position) : Option UInt32 → Drafting World
  | none => return w
  | some house =>
    match w.house? house with
    | none => throw (.unknownHouse p house)
    | some _ => return w.updateHouse house fun h g => h.addTile g p

/-- Enters a tile with its items. -/
def enterTile (w : World) (e : TileEntry) : Drafting World := do
  if (w.graph.tile? e.position).isSome then throw (.tileTwice e.position)
  let w := { w with graph := w.graph.ensureTile e.position }
  count fun r => { r with tiles := r.tiles + 1 }
  let w ← w.claimTile e.position e.house
  e.items.foldlM (enterItem e.position e.house) w

/-- Builds the world of a blueprint. -/
def draft (c : Catalog) (b : Blueprint) : Drafting World := do
  let w : World := { catalog := c, name := b.name }
  let w ← b.houses.foldlM enterHouse w
  b.tiles.foldlM enterTile w

/-- Builds the world of a blueprint; the report and the notices are there also when that fails. -/
def ofBlueprint (c : Catalog) (b : Blueprint) : Except BlueprintError World × Draft :=
  (draft c b).run {}

end World

end Homestead
