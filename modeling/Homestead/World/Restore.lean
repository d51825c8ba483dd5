/-
  Homestead.World.Restore
  ───────────────────────
  **HOUSE TILES COME BACK.**

  A row of the archive has the position of a tile, a number of records and
  the records.  What can move is made anew and put on the tile.  What
  cannot move is there already, because the map has it: the record goes to
  the first item of its type that no record of the row went to before, or
  else, for a door or a bed, to the first free door or bed.  Stored
  contents take the place of the ones that the map gives.

  A row stops at the first record that cannot be read; what came before it
  stays.
-/
import Homestead.Archive.Store
import Homestead.Record.Decode
import Homestead.World.Decay
import Homestead.World.Notice

open Homestead.Stream

namespace Homestead

namespace World

/-! ## §1. Loaded items. -/

/-- Notes the sleeper of a loaded item, starts its time, and does the same for what it holds, down
to so many levels. -/
def registerWithin : Nat → World → ItemId → World
  | 0, w, _ => w
  | levels + 1, w, id =>
    let sleeper := ((w.graph.item? id).map (·.variant.sleeper)).getD 0
    -- Starting its time may turn the item into another one, so its contents are looked up after.
    let w := (w.setSleeper id sleeper).startDecay id
    (w.graph.contents (.item id)).foldl (registerWithin levels) w

/-- Notes the sleepers of a loaded item and of what it holds, and starts their time. -/
def register (w : World) (id : ItemId) : World :=
  registerWithin w.graph.size w id

/-- The first item of a tile that no record has gone to and that has a property. -/
def firstFree? (w : World) (p : Position) (claimed : List ItemId) (property : Item → Bool) :
    Option ItemId :=
  ((w.graph.contents (.tile p)).filter (!claimed.contains ·)).find? fun id =>
    (w.graph.item? id).any property

/-- The item of a tile that a record of a type that does not move goes to. -/
def fixture? (w : World) (p : Position) (claimed : List ItemId) (typeId : TypeId) :
    Option ItemId :=
  match w.firstFree? p claimed (·.typeId == typeId) with
  | some id => some id
  | none =>
    match w.catalog.get? typeId with
    | none => none
    | some t =>
      if t.isDoor then w.firstFree? p claimed (·.isDoor)
      else if t.isBed then w.firstFree? p claimed (·.isBed)
      else none

/-- Takes items out of a container, one after another, up to the first that it does not give. -/
def takeOut (container : ItemId) : List ItemId → Graph → Except GraphError Unit × Graph
  | [], g => (.ok (), g)
  | child :: rest, g =>
    match g.tryRemove (.item container) child with
    | (.error e, g) => (.error e, g)
    | (.ok (), g) => takeOut container rest g

/-- Takes everything out of a container. -/
def emptyOut (g : Graph) (container : ItemId) : Except GraphError Unit × Graph :=
  takeOut container (g.contents (.item container)) g

/-! ## §2. Records. -/

/-- A row that is being restored. -/
structure Restoring where
  /-- The world so far. -/
  world : World
  /-- The report so far. -/
  report : LoadReport := {}
  /-- The notices so far. -/
  notices : List Notice := []
  /-- The items that records of the row have gone to. -/
  claimed : List ItemId := []

namespace Restoring

/-- Adds to the count of items made and let go. -/
def count (s : Restoring) (tally : Tally) : Restoring :=
  { s with report := { s.report with items := s.report.items + tally } }

/-- Adds a notice. -/
def note (s : Restoring) (n : Notice) : Restoring :=
  { s with notices := s.notices ++ [n] }

/-- Puts an item that moves on its tile. -/
def placeMoveable (p : Position) (r : Record) (s : Restoring) :
    Except Record.DecodeError Unit × Restoring :=
  let (built, tally) := r.build s.world.catalog
  let s := s.count tally
  match built with
  | .error e => (.error e, s)
  | .ok none => (.ok (), s)
  | .ok (some tree) =>
    let (id, g) := s.world.graph.create tree
    match g.tryAdd (.tile p) id with
    | (.error e, graph) => (.error (.graph e), { s with world := { s.world with graph } })
    | (.ok (), graph) => (.ok (), { s with world := ({ s.world with graph }).register id })

/-- Gives an item of the map the contents of a record, if the record has any to give. -/
def replaceContents (id : ItemId) (r : Record) (s : Restoring) :
    Except Record.DecodeError Unit × Restoring :=
  match r.children with
  | none => (.ok (), s)
  | some _ =>
    match emptyOut s.world.graph id with
    | (.error e, graph) => (.error (.graph e), { s with world := { s.world with graph } })
    | (.ok (), g) =>
      let (result, tally, graph) := r.fill s.world.catalog g id
      (result, ({ s with world := { s.world with graph } }).count tally)

/-- Gives an item of the map what a record says. -/
def bindFixture (id : ItemId) (r : Record) (s : Restoring) :
    Except Record.DecodeError Unit × Restoring :=
  let w := s.world.updateItem id fun i => i.applyAll s.world.catalog r.updates
  match replaceContents id r { s with world := w } with
  | (.error e, s) => (.error e, s)
  | (.ok (), s) =>
    let w := s.world
    let w := if (w.graph.item? id).any (·.typeId != r.typeId) then w.retype id r.typeId else w
    (.ok (), { s with
      world := w.register id
      report := { s.report with matched := s.report.matched + 1 }
      claimed := s.claimed ++ [id] })

/-- Lets a record go that no item of the map is left for.  A character who slept in it is let go
too. -/
def throwAway (r : Record) (s : Restoring) : Except Record.DecodeError Unit × Restoring :=
  let s := { s with report := { s.report with throwaway := s.report.throwaway + 1 } }
  match r.build s.world.catalog with
  | (.error e, _) => (.error e, s)
  | (.ok built, tally) =>
    let s := s.count (.letGo (tally.created + tally.discarded))
    let sleeper := (built.map (·.item.variant.sleeper)).getD 0
    if sleeper ≠ 0 && (s.world.bedOf? sleeper).isSome then
      (.ok (), ({ s with world := s.world.removeSleeper sleeper }).note (.releasedBed sleeper))
    else (.ok (), s)

/-- Whether items of a record's type move, if the type can be used. -/
def moves? (c : Catalog) (r : Record) : Option Bool :=
  if r.known then (c.get? r.typeId).map (·.moveable) else none

/-- Brings a record back to its tile. -/
def place (p : Position) (r : Record) (s : Restoring) :
    Except Record.DecodeError Unit × Restoring :=
  match moves? s.world.catalog r with
  | none => (.ok (), s.count (.letGo r.total))
  | some true => placeMoveable p r s
  | some false =>
    match s.world.fixture? p s.claimed r.typeId with
    | some id => bindFixture id r s
    | none => throwAway r s

/-! ## §3. Rows. -/

/-- Reads `left` records and brings them back, up to the first failure. -/
def placeAll (house : UInt32) (p : Position) (total : Nat) :
    Nat → Reader → Restoring → Restoring
  | 0, _, s => s
  | left + 1, r, s =>
    let fail (e : Record.DecodeError) (s : Restoring) : Restoring :=
      ({ s with report := { s.report with failed := s.report.failed + 1 } }).note
        (.badRecord house p (total - left) total e)
    match Record.decode s.world.catalog r with
    | .error failure => fail failure.error s
    | .ok (record, r) =>
      match place p record s with
      | (.error e, s) => fail e s
      | (.ok (), s) => placeAll house p total left r s

/-- Reads the position of a tile and the number of its records. -/
def readHead (r : Reader) : Option ((Position × UInt32) × Reader) := do
  let (x, r) ← r.u16
  let (y, r) ← r.u16
  let (z, r) ← r.u8
  let (count, r) ← r.u32
  return ((⟨x, y, z⟩, count), r)

/-- Brings a row back. -/
def restoreRow (s : Restoring) (row : TileRow) : Restoring :=
  let s := { s with report := { s.report with rows := s.report.rows + 1 }, claimed := [] }
  match readHead (Reader.ofOctets row.data) with
  | none =>
    ({ s with report := { s.report with failed := s.report.failed + 1 } }).note
      (.shortRow row.house row.data.length)
  | some ((p, count), r) =>
    match s.world.graph.tile? p with
    | none =>
      ({ s with report := { s.report with skipped := s.report.skipped + 1 } }).note
        (.missingTile row.house p)
    | some _ => placeAll row.house p count.toNat count.toNat r s

end Restoring

/-- Brings rows back, one after another. -/
def restoreRows (w : World) (rows : List TileRow) : Restoring :=
  rows.foldl Restoring.restoreRow { world := w }

/-- What loading gives. -/
structure Loaded (α : Type) where
  /-- The world once it is loaded. -/
  world : World
  /-- The report. -/
  report : α
  /-- The notices. -/
  notices : List Notice

/-- Loads the house tiles. -/
def loadItems (w : World) (a : Archive) : Except ArchiveError (Loaded LoadReport) := do
  let rows ← a.tileRows
  let s := w.restoreRows rows
  return { world := s.world, report := s.report, notices := s.notices ++ [.itemsLoaded s.report] }

end World

end Homestead
