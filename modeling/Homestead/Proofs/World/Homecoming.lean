/-
  Homestead.Proofs.World.Homecoming
  ─────────────────────────────────
  **WHETHER RECORDS COME HOME AFTER A RESTART.**

  The fixtures of a map are altered where they stand, in all houses; the
  world is saved, and read back into the world that is built anew from the
  map.  A row brings something to its own tile only.  So every tile is as
  the map has it when its row comes, and whether the records of the row
  come home is a matter of that tile alone; and what a row has brought
  stays as it is.

  Main results:
    * `records_come_home` — the records and the rows of an altered world;
    * `records_go_astray` — that records may go to other fixtures, and that
      rows may change though none does.
-/
import Homestead.Proofs.World.Restart
import Homestead.Proofs.World.RowsApart
import Homestead.Proofs.World.Rewritten

namespace Homestead

namespace World

variable {c : Catalog} {b : Blueprint} {w w' : World} {a' : Archive} {tile : UInt32 × Position}

/-! ## §1. Altered worlds. -/

/-- A world in which the fixtures of a map have been altered where they stand. -/
structure Altered (w w' : World) : Prop where
  /-- The world is sound. -/
  sound : w'.Sound
  /-- The catalog is the same. -/
  catalog : w'.catalog = w.catalog
  /-- The houses have the same tiles. -/
  houses : w'.houseTiles = w.houseTiles
  /-- On those stand the same fixtures. -/
  fixtures : ∀ tile ∈ w.houseTiles, AlteredOn w w' tile.2

/-- A world that is built from a map, the altered world, and the archive once that one has been
saved to it. -/
structure SavedAltered (c : Catalog) (b : Blueprint) (w w' : World) (a' : Archive) : Prop where
  /-- The world is that of the map. -/
  built : (ofBlueprint c b).1 = .ok w
  /-- The other one is an altered one. -/
  altered : Altered w w'
  /-- All that lies on tiles of houses is of known types, and has time left or no time at all. -/
  known : ∀ tile ∈ w.houseTiles, ∀ t ∈ w'.treesOn tile.2,
    t.Every fun i _ => (c.usable? i.typeId).isSome ∧ i.Unspent c
  /-- Nothing lies too deep. -/
  shallow : ∀ tile ∈ w.houseTiles, ∀ t ∈ w'.treesOn tile.2, t.nesting ≤ Record.maxDepth
  /-- It has been saved. -/
  saved : ∃ a report, a.Limited ∧ w'.saveItems a = .ok (report, a')
  /-- The rows can be read. -/
  read : a'.declines .tileRows = none

/-- All tiles of a map have been altered and saved. -/
structure AllStanding (w w' : World) : Prop where
  /-- The tiles, one by one. -/
  standing : ∀ tile ∈ w.houseTiles, Standing w w' tile.2
  /-- The houses have the same tiles. -/
  houses : w'.houseTiles = w.houseTiles
  /-- No tile comes twice. -/
  distinct : (w.houseTiles.map (·.2)).Nodup
  /-- The tiles are there. -/
  there : ∀ tile ∈ w.houseTiles, (w.graph.tile? tile.2).isSome

/-- **What an altered world has saved comes to the tiles of the map.** -/
theorem SavedAltered.restart (h : SavedAltered c b w w' a') :
    AllStanding w w' ∧ ∃ loaded, w.loadItems a' = .ok loaded
      ∧ loaded.world = (w.restoreRows w'.tileRows).world := by
  obtain ⟨a, report, hLimited, hSaved⟩ := h.saved
  have hDrawn := drawn_ofBlueprint h.built
  obtain rfl := hDrawn.catalog
  obtain ⟨loaded, hLoaded, hWorld, _, hLength, hAwaiting⟩ :=
    World.restart h.built hLimited hSaved h.altered.catalog h.read
  have hCatalog := h.altered.catalog
  refine ⟨⟨?_, h.altered.houses, hAwaiting.distinct, hAwaiting.there⟩, loaded, hLoaded, hWorld⟩
  intro tile hMem
  constructor
  case toAlteredOn => exact h.altered.fixtures tile hMem
  case sound => exact hDrawn.sound
  case sound' => exact h.altered.sound
  case catalog => exact hCatalog
  case untouched => exact hDrawn.untouched hMem
  case returnable =>
    exact h.altered.sound.returnable (h.altered.houses.symm ▸ hMem) hLength
      (hCatalog.symm ▸ h.known tile hMem) (h.shallow tile hMem)
  -- What stands on the tile is shown by a tree there, and those are of known types.
  case known =>
    intro id hid i hi
    rw [← (h.altered.fixtures tile hMem).contents] at hid
    obtain ⟨n, hn, _⟩ := Graph.item?_eq_some.1 hi
    obtain ⟨t, ht⟩ := h.altered.sound.consistent.tree?_isSome (by rw [hn]; rfl)
    have hWithin := Graph.Shows.allWithin t id
      (h.known tile hMem t (List.mem_filterMap.2 ⟨id, hid, ht⟩))
      (h.altered.sound.consistent.tree?_eq_some_iff.1 ht)
    obtain ⟨hUsable, _⟩ := hWithin id i .refl hi
    obtain ⟨ty, hType⟩ := Option.isSome_iff_exists.1 hUsable
    exact ⟨ty, Catalog.get?_of_usable? hType⟩

/-! ## §2. All rows. -/

/-- The row of a tile names the tile. -/
theorem tile?_of_tileRow? {row : TileRow} (h : w.tileRow? tile = some row) :
    row.tile? = some tile.2 := by
  obtain ⟨_, rfl⟩ := tileRow?_eq_some.1 h
  obtain ⟨_, hHead⟩ := Restoring.readHead_tileOctets w.catalog tile.2 (w.savedTrees tile.2)
  rw [TileRow.tile?, hHead]
  rfl

/-- Rows of other tiles leave a tile as it is. -/
theorem sameTile_of_others {p : Position} {s : Restoring} (hs : s.world.Sound)
    {tiles : List (UInt32 × Position)} (hOthers : p ∉ tiles.map (·.2)) :
    s.world.graph.SameTile
      ((tiles.filterMap w.tileRow?).foldl Restoring.restoreRow s).world.graph p := by
  refine Restoring.sameTile_restoreRows _ ?_ hs
  intro row hRow hEq
  obtain ⟨tile, hMem, hTile⟩ := List.mem_filterMap.1 hRow
  rw [tile?_of_tileRow? hTile] at hEq
  exact hOthers (List.mem_map.2 ⟨tile, hMem, Option.some_inj.1 hEq⟩)

section Rows

variable {before after : List (UInt32 × Position)}

/-- **A tile is as the map has it when its row comes.** -/
theorem AllStanding.sameTile (h : AllStanding w w') (hw : w.Sound)
    (hList : w.houseTiles = before ++ tile :: after) :
    w.graph.SameTile (w.restoreRows (before.filterMap w'.tileRow?)).world.graph tile.2 := by
  have hDistinct := h.distinct
  rw [hList, List.map_append, List.map_cons] at hDistinct
  refine sameTile_of_others (s := { world := w }) hw fun hMem => ?_
  exact (List.nodup_append.1 hDistinct).2.2 _ hMem _ List.mem_cons_self rfl

/-- What happens to the records of a tile when the rows of the tiles before it have come. -/
def lotsAfter (w w' : World) (before : List (UInt32 × Position)) (p : Position) : List Lot :=
  Restoring.lots p (ItemTree.records w.catalog (w'.savedTrees p))
    (w.restoreRows (before.filterMap w'.tileRow?)).begun

/-- All of them go to the fixtures that they were written for. -/
def AllHome (w w' : World) (before : List (UInt32 × Position)) (p : Position) : Prop :=
  w.lotsAfter w' before p = ((w.graph.contents (.tile p)).filter w'.isStored).map Lot.bound

/-- **When all records of a row come home.** -/
theorem AllStanding.allHome_iff (h : AllStanding w w') (hw : w.Sound)
    (hList : w.houseTiles = before ++ tile :: after) :
    AllHome w w' before tile.2 ↔ Orderly w w' tile.2 := by
  have hMem : tile ∈ w.houseTiles := by
    rw [hList]
    exact List.mem_append_right before List.mem_cons_self
  have hKeeps := Restoring.keeps_restoreRows hw (before.filterMap w'.tileRow?)
  exact (h.standing tile hMem).lots_iff_orderly (hKeeps.sound hw) hKeeps.catalog
    (h.sameTile hw hList)

/-- A tile for which there is no row stays as the map has it. -/
theorem Standing.returned_of_nothing {g : Graph} (hRow : w'.tileRow? tile = none)
    (h : Standing w w' tile.2) (hSame : w.graph.SameTile g tile.2) :
    Returned w w' tile.2 g where
  contents := hSame.contents
  home id hid hStored := by
    rw [← h.contents] at hid
    rw [tileRow?_eq_none_iff.1 hRow id hid] at hStored
    cases hStored
  left id hid _ := hSame.leftAlone id hid

/-- **The fixtures of an orderly tile are what their records make of them** once all rows have
come. -/
theorem AllStanding.returned (h : AllStanding w w') (hw : w.Sound) (hMem : tile ∈ w.houseTiles)
    (hOrder : Orderly w w' tile.2) :
    Returned w w' tile.2 (w.restoreRows w'.tileRows).world.graph := by
  have hStanding := h.standing tile hMem
  have hThere := h.there tile hMem
  obtain ⟨before, after, hList⟩ := List.append_of_mem hMem
  have hSame := h.sameTile hw hList
  have hKeeps := Restoring.keeps_restoreRows hw (before.filterMap w'.tileRow?)
  have hDistinct := h.distinct
  rw [hList, List.map_append, List.map_cons] at hDistinct
  have hLater := (List.nodup_cons.1 (List.nodup_append.1 hDistinct).2.1).1
  -- The rows before that of the tile and those after it are for other tiles.
  have hRows : w.restoreRows w'.tileRows
      = ((tile :: after).filterMap w'.tileRow?).foldl Restoring.restoreRow
        (w.restoreRows (before.filterMap w'.tileRow?)) := by
    rw [tileRows_eq, h.houses, hList, List.filterMap_append, restoreRows, List.foldl_append]
    rfl
  rw [hRows]
  generalize w.restoreRows (before.filterMap w'.tileRow?) = s at hSame hKeeps ⊢
  have hs := hKeeps.sound hw
  cases hRow : w'.tileRow? tile with
  | none =>
    rw [List.filterMap_cons_none hRow]
    exact hStanding.returned_of_nothing hRow (hSame.trans (sameTile_of_others hs hLater))
  | some row =>
    obtain ⟨_, rfl⟩ := tileRow?_eq_some.1 hRow
    rw [List.filterMap_cons_some hRow, List.foldl_cons]
    have hHome := hStanding.homecoming hOrder tile.1 hs hKeeps.catalog
      (by rw [hKeeps.tiles]; exact hThere) hSame
    exact hHome.of_sameTile (sameTile_of_others ((Restoring.keeps_restoreRow hs _).sound hs) hLater)

end Rows

/-! ## §3. After a restart. -/

/-- A tile after a restart that was orderly. -/
structure Homecoming (w w' l : World) (tile : UInt32 × Position) : Prop where
  /-- Its fixtures are what their records make of them. -/
  returned : Returned w w' tile.2 l.graph
  /-- Its row is written as it was just if every fixture on its own is. -/
  written : l.tileRow? tile = w'.tileRow? tile
    ↔ ∀ id ∈ w.graph.contents (.tile tile.2), w.writtenAgain w' id = w'.writtenAs id

/-- **Records come home to orderly tiles, and to no others.**  Take any map, and alter the fixtures
on the tiles of its houses where they stand.  After a restart all records of a tile go to the
fixtures that they were written for just if the tile is orderly.  Then every fixture on it is what
its own record makes of the fixture of the map; and the rows are the same again just if what is
written of every fixture, taken on its own, is the same again. -/
theorem records_come_home (h : SavedAltered c b w w' a') :
    (∀ before tile after, w.houseTiles = before ++ tile :: after →
      (AllHome w w' before tile.2 ↔ Orderly w w' tile.2))
    ∧ ∃ loaded, w.loadItems a' = .ok loaded
      ∧ (∀ tile ∈ w.houseTiles, Orderly w w' tile.2 → Homecoming w w' loaded.world tile)
      ∧ ((∀ tile ∈ w.houseTiles, Orderly w w' tile.2) →
        (loaded.world.tileRows = w'.tileRows ↔ ∀ tile ∈ w.houseTiles,
          ∀ id ∈ w.graph.contents (.tile tile.2), w.writtenAgain w' id = w'.writtenAs id)) := by
  have hDrawn := drawn_ofBlueprint h.built
  obtain rfl := hDrawn.catalog
  obtain ⟨hAll, loaded, hLoaded, hWorld⟩ := h.restart
  have hChanges := changes_loadItems hDrawn.sound hLoaded
  have hSound := hChanges.sound hDrawn.sound
  have hHome : ∀ tile ∈ w.houseTiles, Orderly w w' tile.2 →
      Homecoming w w' loaded.world tile := by
    intro tile hMem hOrder
    have hBack := hAll.returned hDrawn.sound hMem hOrder
    rw [← hWorld] at hBack
    exact ⟨hBack, hBack.tileRow?_eq_iff (hAll.standing tile hMem) hSound hChanges.catalog⟩
  refine ⟨fun before tile after hList => hAll.allHome_iff hDrawn.sound hList, loaded, hLoaded,
    hHome, fun hOrder => ?_⟩
  have hTiles : loaded.world.houseTiles = w.houseTiles := by
    unfold houseTiles
    rw [hChanges.houses]
  -- No tile can make up for the row of another one: where there was a row, there is one.
  have hStill : ∀ tile ∈ w.houseTiles, (w'.tileRow? tile).isSome →
      (loaded.world.tileRow? tile).isSome := by
    intro tile hMem hRow
    have hBack := (hHome tile hMem (hOrder tile hMem)).returned
    by_contra hNone
    rw [Option.not_isSome_iff_eq_none, tileRow?_eq_none_iff, hBack.contents] at hNone
    rw [Option.isSome_iff_ne_none, Ne, tileRow?_eq_none_iff] at hRow
    refine hRow fun id hid => ?_
    rw [(hAll.standing tile hMem).contents] at hid
    by_contra hStored
    have hAgain := hBack.isStored (hAll.standing tile hMem) hSound hChanges.catalog hid
      (Bool.eq_true_of_not_eq_false hStored)
    rw [hNone id hid] at hAgain
    cases hAgain
  rw [tileRows_eq, tileRows_eq, hTiles, hAll.houses, filterMap_eq_iff _ hStill]
  exact forall₂_congr fun tile hMem => (hHome tile hMem (hOrder tile hMem)).written

/-! ## §4. Doors and chests. -/

/-- Doors and chests. -/
def chestDoorCatalog : Catalog where
  types := chestCatalog.types.insert 200 { id := 200, group := .door }
  keyed := chestCatalog.keyed_insert { id := 200, group := .door }

/-- Doors of two types, and chests. -/
def hallCatalog : Catalog where
  types := chestDoorCatalog.types.insert 201 { id := 201, group := .door }
  keyed := chestDoorCatalog.keyed_insert { id := 201, group := .door }

/-- A house with a door of each type on one tile, two chests on another one, and a door that has a
number on a third one. -/
def hall : Blueprint where
  houses := [{ id := 1, name := "", entry := .zero }]
  tiles := [⟨.zero, some 1, [.mk { typeId := 200 } [], .mk { typeId := 201 } []]⟩,
    ⟨⟨1, 0, 0⟩, some 1, [.mk { typeId := 2 } [], .mk { typeId := 2 } []]⟩,
    ⟨⟨2, 0, 0⟩, some 1, [.mk { typeId := 200, doorId := 5 } []]⟩]

/-- The world of that house, in which the fixtures have the numbers from zero to four. -/
def hallWorld : World :=
  (ofBlueprint hallCatalog hall).1.toOption.getD {}

/-- The second door gets the type of the first one, a chest is put into the first chest, and the
last door gets another number. -/
def tidyActions : List Graph.Action :=
  [.retype 1 200, .create 2 0, .add (.item 2) 5, .edit 4 (.update (.number .doorId 7))]

/-- That world once it is saved. -/
def savedTidy : SaveReport × Archive :=
  ((hallWorld.afterActions tidyActions).saveItems limitedArchive).toOption.getD ({}, {})

/-- The hall is built from its map. -/
theorem ofBlueprint_hall : (ofBlueprint hallCatalog hall).1 = .ok hallWorld := by
  have hBuilds : (ofBlueprint hallCatalog hall).1.toOption.isSome = true := by
    decide +kernel
  unfold hallWorld
  exact eq_ok_of_isSome (ofBlueprint hallCatalog hall).1 ({} : World) hBuilds

/-- Whatever is done to items, the world is altered if the fixtures are those of the map. -/
theorem savedAltered_afterActions (hBuilt : (ofBlueprint c b).1 = .ok w)
    (actions : List Graph.Action) {saved : SaveReport × Archive}
    (hFixtures : ∀ tile ∈ w.houseTiles, AlteredOn w (w.afterActions actions) tile.2)
    (hKnown : ∀ tile ∈ w.houseTiles, ∀ t ∈ (w.afterActions actions).treesOn tile.2,
      (t.Every fun i _ => (c.usable? i.typeId).isSome ∧ i.Unspent c) ∧ t.nesting ≤ Record.maxDepth)
    (hSaved : (w.afterActions actions).saveItems limitedArchive = .ok saved) :
    SavedAltered c b w (w.afterActions actions) saved.2 := by
  obtain ⟨report, a'⟩ := saved
  obtain ⟨_, hSame, _⟩ := tileRows_of_saveItems hSaved
  constructor
  case built => exact hBuilt
  -- Actions on items keep the catalog, the houses and a sound world.
  case altered =>
    exact ⟨(drawn_ofBlueprint hBuilt).sound.afterActions actions, rfl, rfl, hFixtures⟩
  case known => exact fun tile hMem t ht => (hKnown tile hMem t ht).1
  case shallow => exact fun tile hMem t ht => (hKnown tile hMem t ht).2
  case saved => exact ⟨limitedArchive, report, limitedArchive_limited, hSaved⟩
  case read =>
    rw [hSame]
    rfl

/-- All tiles are orderly then; all records come home, and the rows stay as they are. -/
theorem records_come_home_tidy :
    SavedAltered hallCatalog hall hallWorld (hallWorld.afterActions tidyActions) savedTidy.2
      ∧ ∃ loaded, hallWorld.loadItems savedTidy.2 = .ok loaded
        ∧ (∀ tile ∈ hallWorld.houseTiles,
          Homecoming hallWorld (hallWorld.afterActions tidyActions) loaded.world tile)
        ∧ loaded.world.tileRows = (hallWorld.afterActions tidyActions).tileRows := by
  have hSaves : ((hallWorld.afterActions tidyActions).saveItems
      limitedArchive).toOption.isSome = true := by
    decide +kernel
  have hSaved : (hallWorld.afterActions tidyActions).saveItems limitedArchive = .ok savedTidy := by
    unfold savedTidy
    exact eq_ok_of_isSome ((hallWorld.afterActions tidyActions).saveItems limitedArchive) ({}, {})
      hSaves
  have hAltered := savedAltered_afterActions ofBlueprint_hall tidyActions (by decide +kernel)
    (by decide +kernel) hSaved
  -- All tiles are orderly, so the theorem tells the rest.
  have hOrder : ∀ tile ∈ hallWorld.houseTiles,
      Orderly hallWorld (hallWorld.afterActions tidyActions) tile.2 := by
    decide +kernel
  have hAgain : ∀ tile ∈ hallWorld.houseTiles, ∀ id ∈ hallWorld.graph.contents (.tile tile.2),
      hallWorld.writtenAgain (hallWorld.afterActions tidyActions) id
        = (hallWorld.afterActions tidyActions).writtenAs id := by
    decide +kernel
  obtain ⟨_, loaded, hLoaded, hHome, hRows⟩ := records_come_home hAltered
  exact ⟨hAltered, loaded, hLoaded, fun tile hMem => hHome tile hMem (hOrder tile hMem),
    (hRows hOrder).2 hAgain⟩

/-- The doors swap their types and are told apart by what is said of them, a chest is put into the
second chest, and the last door loses its number. -/
def strayActions : List Graph.Action :=
  [.retype 0 201, .retype 1 200, .edit 0 (.update (.text .description "A")),
    .edit 1 (.update (.text .description "B")), .create 2 0, .add (.item 3) 5,
    .edit 4 (.remove .doorId)]

/-- That world once it is saved. -/
def savedStray : SaveReport × Archive :=
  ((hallWorld.afterActions strayActions).saveItems limitedArchive).toOption.getD ({}, {})

/-- What is loaded then. -/
def loadedStray : Loaded LoadReport :=
  (hallWorld.loadItems savedStray.2).toOption.getD { world := {}, report := {}, notices := [] }

/-- **Records go astray.**  The record of the first door goes to the second one, and that of the
second one to the first; the record of the second chest, with what lies in it, goes to the first
one.  The record of the last door does go to that door, which nevertheless has the number again that
the map gives it; so its row, too, is not written as it was. -/
theorem records_go_astray :
    SavedAltered hallCatalog hall hallWorld (hallWorld.afterActions strayActions) savedStray.2
      ∧ hallWorld.houseTiles = [(1, .zero), (1, ⟨1, 0, 0⟩), (1, ⟨2, 0, 0⟩)]
      ∧ hallWorld.graph.contents (.tile .zero) = [0, 1]
      ∧ hallWorld.lotsAfter (hallWorld.afterActions strayActions) [] .zero = [.bound 1, .bound 0]
      ∧ (hallWorld.graph.contents (.tile ⟨1, 0, 0⟩)).filter
        (hallWorld.afterActions strayActions).isStored = [3]
      ∧ hallWorld.lotsAfter (hallWorld.afterActions strayActions) [(1, .zero)] ⟨1, 0, 0⟩
        = [.bound 2]
      ∧ AllHome hallWorld (hallWorld.afterActions strayActions) [(1, .zero), (1, ⟨1, 0, 0⟩)]
        ⟨2, 0, 0⟩
      ∧ hallWorld.loadItems savedStray.2 = .ok loadedStray
      ∧ loadedStray.world.tileRow? (1, .zero)
        ≠ (hallWorld.afterActions strayActions).tileRow? (1, .zero)
      ∧ loadedStray.world.tileRow? (1, ⟨2, 0, 0⟩)
        ≠ (hallWorld.afterActions strayActions).tileRow? (1, ⟨2, 0, 0⟩) := by
  -- What is saved and what is loaded of it are computed, each of them once.
  have hSaves : ((hallWorld.afterActions strayActions).saveItems
      limitedArchive).toOption.isSome = true := by
    decide +kernel
  have hSaved : (hallWorld.afterActions strayActions).saveItems limitedArchive
      = .ok savedStray := by
    unfold savedStray
    exact eq_ok_of_isSome ((hallWorld.afterActions strayActions).saveItems limitedArchive) ({}, {})
      hSaves
  have hLoads : (hallWorld.loadItems savedStray.2).toOption.isSome = true := by
    decide +kernel
  have hLoaded : hallWorld.loadItems savedStray.2 = .ok loadedStray := by
    unfold loadedStray
    exact eq_ok_of_isSome (hallWorld.loadItems savedStray.2) _ hLoads
  have hAltered := savedAltered_afterActions ofBlueprint_hall strayActions (by decide +kernel)
    (by decide +kernel) hSaved
  refine ⟨hAltered, by decide +kernel, by decide +kernel, by decide +kernel, by decide +kernel,
    by decide +kernel, ?_, hLoaded, by decide +kernel, by decide +kernel⟩
  unfold AllHome
  decide +kernel

end World

end Homestead
