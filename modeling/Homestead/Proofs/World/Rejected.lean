/-
  Homestead.Proofs.World.Rejected
  ───────────────────────────────
  **SAVING, AND LOADING AFTER A RESTART.**

  What is saved is read back into a world that is built anew from the same
  blueprint.  Nothing keeps containers from lying in one another deeper
  than the reader goes, neither when they are put there nor when they are
  saved.  So a row is rejected, with all that follows in it, just if there
  is such a tree on its tile.

  An archive is taken to decline rows that are longer than a column can be.

  Main results:
    * `loadItems_of_saveItems` — loading gives what was saved;
    * `failed_eq_tooDeep` — how many rows are rejected.
-/
import Homestead.Proofs.Archive.Transact

namespace Homestead

/-! ## §1. Archives. -/

/-- The archive declines rows that are too long for a column. -/
def Archive.Limited (a : Archive) : Prop :=
  ∀ rows, a.declines (.insertTiles rows) = none → ∀ row ∈ rows, row.data.length < 2147483648

/-- A number of four octets is read from its column. -/
theorem readColumn_toNat (table : Table) (column : String) (n : UInt32) :
    readColumn table column (n.toNat : Int) = .ok n := by
  have hBound := n.toNat_lt
  unfold readColumn
  rw [if_pos]
  · rw [Int.toNat_natCast, UInt32.ofNat_toNat]
  · rw [Bool.and_eq_true, decide_eq_true_eq, decide_eq_true_eq]
    omega

/-- The rows of house tiles read back as they were. -/
theorem Tables.tileRows_of_stored {t : Tables} {rows : List TileRow}
    (h : t.tiles = rows.map fun row => ((row.house.toNat : Int), row.data)) :
    t.tileRows = .ok rows := by
  unfold Tables.tileRows
  rw [h]
  clear h
  induction rows with
  | nil => rfl
  | cons row rows ih =>
    rw [List.map_cons, List.mapM_cons, ih]
    dsimp only
    -- A house number is written as it is, and is in the range that is read.
    rw [readColumn_toNat]
    rfl

namespace World

/-- What is in the archive once a world is saved. -/
theorem tileRows_of_saveItems {w : World} {a a' : Archive} {report : SaveReport}
    (h : w.saveItems a = .ok (report, a')) :
    a.declines (.insertTiles w.tileRows) = none ∧ a'.declines = a.declines
      ∧ a'.tables.tileRows = .ok w.tileRows := by
  obtain ⟨_, rfl⟩ := saveItems_eq_ok h
  refine ⟨?_, rfl, Tables.tileRows_of_stored rfl⟩
  unfold saveItems at h
  obtain ⟨_, hTransact, _⟩ := bind_eq_ok.1 h
  obtain ⟨_, _, hTaken, _⟩ := Archive.transact_iff.1 hTransact
  exact hTaken _ (List.mem_cons_of_mem _ List.mem_cons_self)

/-- Rows that can be read are brought back. -/
theorem loadItems_of_tileRows (w : World) {a : Archive} {rows : List TileRow}
    (h : a.tileRows = .ok rows) :
    ∃ loaded, w.loadItems a = .ok loaded ∧ loaded.world = (w.restoreRows rows).world
      ∧ loaded.report = (w.restoreRows rows).report := by
  unfold loadItems
  rw [h]
  exact ⟨_, rfl, rfl, rfl⟩

/-- **Loading gives back the rows that were saved.** -/
theorem loadItems_of_saveItems (w₀ : World) {w : World} {a a' : Archive} {report : SaveReport}
    (hSaved : w.saveItems a = .ok (report, a')) (hRead : a'.declines .tileRows = none) :
    ∃ loaded, w₀.loadItems a' = .ok loaded ∧ loaded.world = (w₀.restoreRows w.tileRows).world
      ∧ loaded.report = (w₀.restoreRows w.tileRows).report := by
  obtain ⟨_, _, hRows⟩ := tileRows_of_saveItems hSaved
  refine loadItems_of_tileRows w₀ ?_
  unfold Archive.tileRows Archive.ask
  rw [hRead]
  exact hRows

/-! ## §2. Rejected rows. -/

/-- The world after things were done to its items. -/
def afterActions (w : World) (actions : List Graph.Action) : World :=
  { w with graph := w.graph.run w.catalog actions }

/-- A world stays sound after any actions. -/
theorem Sound.afterActions {w : World} (hw : w.Sound) (actions : List Graph.Action) :
    (w.afterActions actions).Sound where
  consistent := hw.consistent.run actions
  typed := Graph.allTyped_run hw.consistent hw.typed actions

/-- A tile of a house with a tree on it in which containers lie too deep in one another. -/
def tooDeep (w : World) (tile : UInt32 × Position) : Bool :=
  Record.maxDepth < ItemTree.nestings (w.savedTrees tile.2)

/-- As many rows fail as tiles are too deep. -/
theorem sum_failures (w : World) (tiles : List (UInt32 × Position)) :
    (tiles.map fun tile => Restoring.failures (w.savedTrees tile.2)).sum
      = tiles.countP w.tooDeep := by
  induction tiles with
  | nil => rfl
  | cons tile tiles ih =>
    rw [List.map_cons, List.sum_cons, ih, List.countP_cons, Nat.add_comm, tooDeep]
    unfold Restoring.failures
    by_cases h : ItemTree.nestings (w.savedTrees tile.2) ≤ Record.maxDepth
    · simp [h, Nat.not_lt.2 h]
    · simp [h, Nat.not_le.1 h]

/-- **As many rows are rejected after a restart as there are tiles with a tree that is too deep.**
None is skipped; and none is rejected just if no tree on a tile of a house has more containers
lying in one another than the reader goes down. -/
theorem failed_eq_tooDeep {c : Catalog} {b : Blueprint} {w : World} {a a' : Archive}
    {report : SaveReport} (actions : List Graph.Action) (hBuilt : (ofBlueprint c b).1 = .ok w)
    (hLimited : a.Limited) (hSaved : (w.afterActions actions).saveItems a = .ok (report, a'))
    (hRead : a'.declines .tileRows = none) :
    ∃ loaded, w.loadItems a' = .ok loaded ∧ loaded.report.skipped = 0
      ∧ loaded.report.failed = w.houseTiles.countP (w.afterActions actions).tooDeep
      ∧ (loaded.report.failed = 0 ↔ ∀ tile ∈ w.houseTiles,
        ∀ t ∈ (w.afterActions actions).savedTrees tile.2, t.nesting ≤ Record.maxDepth) := by
  have hDrawn := drawn_ofBlueprint hBuilt
  obtain ⟨hTaken, _, _⟩ := tileRows_of_saveItems hSaved
  obtain ⟨loaded, hLoaded, _, hReport⟩ := loadItems_of_saveItems w hSaved hRead
  -- What the archive has taken it can count, and so can four octets.
  have hLength : ∀ row ∈ (w.afterActions actions).tileRows, row.data.length < 4294967296 := by
    intro row hRow
    have hShort := hLimited _ hTaken row hRow
    omega
  -- The tiles of houses are those of the blueprint: actions do not touch houses.
  have hTiles : ∀ tile ∈ (w.afterActions actions).houseTiles, (w.graph.tile? tile.2).isSome := by
    intro tile hMem
    obtain ⟨t, ht, _⟩ := Option.map_eq_some_iff.1 (hDrawn.houseOf?_of_mem (w := w) hMem)
    rw [ht]
    rfl
  obtain ⟨_, hSkipped, hFailed⟩ := restoreRows_tileRows (hDrawn.sound.afterActions actions)
    hDrawn.sound rfl hTiles hLength
  have hCount : loaded.report.failed = w.houseTiles.countP (w.afterActions actions).tooDeep := by
    rw [hReport, hFailed, sum_failures]
    rfl
  refine ⟨loaded, hLoaded, by rw [hReport, hSkipped], hCount, ?_⟩
  rw [hCount, List.countP_eq_zero]
  constructor
  · intro hNone tile hMem t ht
    have hShallow := hNone tile hMem
    unfold tooDeep at hShallow
    have hNesting : ItemTree.nestings ((w.afterActions actions).savedTrees tile.2)
        ≤ Record.maxDepth := by
      simpa using hShallow
    exact ItemTree.nestings_le_iff.1 hNesting t ht
  · intro hAll tile hMem
    have hNesting := ItemTree.nestings_le_iff.2 (hAll tile hMem)
    unfold tooDeep
    simpa using hNesting

/-! ## §3. Chests in chests. -/

/-- A catalog of one type: chests, which stay where they are and hold items. -/
def chestCatalog : Catalog where
  types := Catalog.empty.types.insert 2 { id := 2, group := .chest }
  keyed := Catalog.empty.keyed_insert { id := 2, group := .chest }

/-- A chest with so many more in it, each in the one before. -/
def chests : Nat → ItemEntry
  | 0 => .mk { typeId := 2 } []
  | n + 1 => .mk { typeId := 2 } [chests n]

/-- A house of one tile with chests on it. -/
def chestHouse (n : Nat) : Blueprint where
  houses := [{ id := 1, name := "", entry := .zero }]
  tiles := [{ position := .zero, house := some 1, items := [chests n] }]

/-- An archive that declines just the rows that are too long. -/
def limitedArchive : Archive where
  declines
    | .insertTiles rows =>
      if rows.all (·.data.length < 2147483648) then none else some (.declined "insert_tile_rows")
    | _ => none

/-- The archive of the example keeps within its limit. -/
theorem limitedArchive_limited : limitedArchive.Limited := by
  intro rows h row hRow
  have hAll : rows.all (·.data.length < 2147483648) = true := by
    by_contra hNot
    simp only [limitedArchive, if_neg hNot] at h
    cases h
  simpa using List.all_eq_true.1 hAll row hRow

/-- The world of a house with twenty-five chests in one another. -/
def chestWorld : World :=
  (ofBlueprint chestCatalog (chestHouse 24)).1.toOption.getD {}

/-- That world once it is saved. -/
def savedChests : SaveReport × Archive :=
  ((chestWorld.afterActions []).saveItems limitedArchive).toOption.getD ({}, {})

/-- The row of a tile with twenty-five chests in one another is rejected. -/
theorem failed_eq_tooDeep_chests :
    (ofBlueprint chestCatalog (chestHouse 24)).1 = .ok chestWorld
      ∧ (chestWorld.afterActions []).saveItems limitedArchive = .ok savedChests
      ∧ ∃ loaded, chestWorld.loadItems savedChests.2 = .ok loaded ∧ loaded.report.failed = 1 := by
  have hBuilds : (ofBlueprint chestCatalog (chestHouse 24)).1.toOption.isSome = true := by
    decide +kernel
  have hBuilt : (ofBlueprint chestCatalog (chestHouse 24)).1 = .ok chestWorld := by
    unfold chestWorld
    exact eq_ok_of_isSome (ofBlueprint chestCatalog (chestHouse 24)).1 ({} : World) hBuilds
  have hSaves : ((chestWorld.afterActions []).saveItems limitedArchive).toOption.isSome = true := by
    decide +kernel
  have hSaved : (chestWorld.afterActions []).saveItems limitedArchive = .ok savedChests := by
    unfold savedChests
    exact eq_ok_of_isSome ((chestWorld.afterActions []).saveItems limitedArchive) ({}, {}) hSaves
  have hParts : (chestWorld.afterActions []).saveItems limitedArchive
      = .ok (savedChests.1, savedChests.2) := by
    rw [hSaved, Prod.mk.eta]
  obtain ⟨_, hSame, _⟩ := tileRows_of_saveItems hParts
  obtain ⟨loaded, hLoaded, _, hFailed, _⟩ := failed_eq_tooDeep [] hBuilt limitedArchive_limited
    hParts (by rw [hSame]; rfl)
  -- The tile with the chests is the only one that is too deep.
  have hOne : chestWorld.houseTiles.countP (chestWorld.afterActions []).tooDeep = 1 := by
    decide +kernel
  exact ⟨hBuilt, hSaved, loaded, hLoaded, hFailed.trans hOne⟩

end World

end Homestead
