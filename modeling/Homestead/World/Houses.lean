/-
  Homestead.World.Houses
  ──────────────────────
  **OWNERS AND LISTS COME AND GO.**

  Rows of houses are loaded before rows of lists, because a new owner
  clears the lists.  Saving replaces all lists and the rows of the houses
  that are on the map; rows of other houses stay as they are.
-/
import Homestead.Archive.Store
import Homestead.World.Restore
import Homestead.World.Save

namespace Homestead

namespace World

/-! ## §1. Loading. -/

/-- Gives a house what its row says. -/
def restoreHouse (w : World) (row : HouseRow) : World :=
  w.updateHouse row.id fun h g =>
    let (h, g) := h.setOwner g row.owner
    ({ h with paidUntil := row.paid, warnings := row.warnings }, g)

/-- Whether there is a house with the number. -/
def hasHouse (w : World) (id : UInt32) : Bool :=
  (w.house? id).isSome

/-- Loads rows of houses. -/
def restoreHouses (w : World) (rows : List HouseRow) : World :=
  rows.foldl restoreHouse w

/-- Loads rows of access lists. -/
def restoreLists {ρ : Type} [Resolver ρ] (w : World) (names : ρ) (rows : List ListRow) :
    World × ρ :=
  rows.foldl (fun (state : World × ρ) row => state.1.setList row.house row.list row.text state.2)
    (w, names)

/-- The report of loading rows. -/
def houseReport (w : World) (rows : List HouseRow) (lists : List ListRow) : HouseReport :=
  { houses := rows.countP fun row => w.hasHouse row.id
    lists := lists.countP fun row => w.hasHouse row.house
    unknown := (rows.countP fun row => !w.hasHouse row.id)
      + lists.countP fun row => !w.hasHouse row.house }

/-- Loads the houses; also gives the name source as it is then. -/
def loadHouses {ρ : Type} [Resolver ρ] (w : World) (a : Archive) (names : ρ) :
    Except ArchiveError (Loaded HouseReport × ρ) := do
  let rows ← a.houseRows
  let lists ← a.listRows
  let report := w.houseReport rows lists
  let (world, names) := (w.restoreHouses rows).restoreLists names lists
  let notices := if report.unknown > 0 then [Notice.strangeHouses report.unknown] else []
  return ({ world, report, notices }, names)

/-! ## §2. Saving. -/

/-- The row of a house. -/
def houseRow (h : House) : HouseRow :=
  { id := h.id, owner := h.owner, paid := h.paidUntil, warnings := h.warnings, name := h.name,
    town := h.town, rent := h.rent, size := UInt32.ofNat h.tiles.length,
    beds := UInt32.ofNat h.bedCount }

/-- The rows of the lists with a text in them, by house. -/
def listRows (w : World) : List ListRow :=
  w.houses.values.flatMap fun h =>
    (h.lists w.graph).map fun (list, text) => { house := h.id, list, text }

/-- Saves the houses. -/
def saveHouses (w : World) (a : Archive) : Except ArchiveError (HouseReport × Archive) := do
  let houses := w.houses.values
  let lists := w.listRows
  let a ← a.transact
    (.clearLists :: houses.map (fun h => .upsertHouse (houseRow h)) ++ [.insertLists lists])
  return ({ houses := houses.length, lists := lists.length }, a)

/-! ## §3. Saving everything. -/

/-- How saving everything went. -/
structure SaveOutcome where
  /-- What was saved of the houses. -/
  houses : Except ArchiveError HouseReport
  /-- What was saved of the house tiles. -/
  items : Except ArchiveError SaveReport

/-- Whether everything was saved. -/
def SaveOutcome.isComplete (o : SaveOutcome) : Bool :=
  o.houses.isOk && o.items.isOk

/-- The notices of saving everything. -/
def SaveOutcome.notices (o : SaveOutcome) : List Notice :=
  (match o.houses with
    | .ok report => [.housesSaved report]
    | .error _ => [])
  ++ match o.items with
    | .ok report => [.itemsSaved report]
    | .error _ => []

/-- The archive after an attempt to save, which is the one before it if the attempt failed. -/
def after {α : Type} (a : Archive) : Except ArchiveError (α × Archive) → Archive
  | .ok (_, saved) => saved
  | .error _ => a

/-- Saves the houses and then the house tiles, each in a transaction of its own, so that one may
be saved and the other not. -/
def save (w : World) (a : Archive) : SaveOutcome × Archive :=
  let houses := w.saveHouses a
  let a := after a houses
  let items := w.saveItems a
  ({ houses := houses.map (·.1), items := items.map (·.1) }, after a items)

end World

end Homestead
