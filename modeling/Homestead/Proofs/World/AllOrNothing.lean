/-
  Homestead.Proofs.World.AllOrNothing
  ───────────────────────────────────
  **SAVING AND LOADING ARE ALL OR NOTHING.**

  A save talks to the archive statement by statement, and the archive may
  give up at any of them.  Then what is stored is what was stored before;
  otherwise it is what the world has, all of it and in order.  Where nothing
  stands in the way of its statements a save does go through.  A load reads
  every row before it changes anything, and a row that has been read cannot
  make it fail; so a load that fails has changed nothing.

  Main results:
    * `saveItemsOn`, `saveHousesOn` — saving on a connection;
    * `TilesSaved`, `HousesSaved` — what is stored then;
    * `loadItemsInto`, `loadHousesInto` — loading step by step;
    * `all_or_nothing` — saves and loads, wherever the archive gives up.
-/
import Homestead.Proofs.Archive.Connection
import Homestead.Proofs.World.HousesReturn
import Homestead.Proofs.World.Reached

namespace Homestead

namespace World

variable {w : World} {ρ : Type} [Resolver ρ]

/-! ## §1. What is saved. -/

/-- The tables once the house tiles of a world are saved. -/
structure TilesSaved (w : World) (before after : Tables) : Prop where
  /-- There is one row for each tile with something to save, by house and in the order of tiles. -/
  tiles : after.tiles = w.houses.values.flatMap fun h =>
    (h.tiles.filter fun p => !(w.savedTrees p).isEmpty).map fun p =>
      ((h.id.toNat : Int), tileOctets w.catalog p (w.savedTrees p))
  /-- Houses come by number. -/
  ordered : (w.houses.values.map (·.id)).Pairwise (· < ·)
  /-- Other tables are as before. -/
  others : after = { before with tiles := after.tiles }

/-- The tables once the houses of a world are saved. -/
structure HousesSaved (w : World) (before after : Tables) : Prop where
  /-- There is one row for each list with a text in it, by house and in the order of lists. -/
  lists : after.lists = w.houses.values.flatMap fun h =>
    (h.lists w.graph).map fun list => ((h.id.toNat : Int), (list.1.toNat : Int), list.2)
  /-- No row is for a list without a text. -/
  written : ∀ row ∈ after.lists, row.2.2 ≠ ""
  /-- Houses come by number. -/
  ordered : (w.houses.values.map (·.id)).Pairwise (· < ·)
  /-- Every house has the row that says what it is now. -/
  own : ∀ id h, w.house? id = some h →
    after.houses[(id.toNat : Int)]? = some (houseRow h).stored
  /-- The rows of other houses are as before. -/
  foreign : ∀ k : Int, (∀ id h, w.house? id = some h → k ≠ id.toNat) →
    after.houses[k]? = before.houses[k]?
  /-- Other tables are as before. -/
  others : after = { before with lists := after.lists, houses := after.houses }

/-- Houses come by number. -/
theorem pairwise_id_houses (hw : w.Numbered) : (w.houses.values.map (·.id)).Pairwise (· < ·) := by
  rw [values_eq, List.map_map, List.pairwise_map]
  refine (Std.TreeMap.ordered_keys_toList (t := w.houses)).imp_of_mem ?_
  intro first second hFirst hSecond hLess
  have hNumber : ∀ pair ∈ w.houses.toList, pair.2.id = pair.1 := fun pair hPair =>
    hw pair.1 pair.2 (Std.TreeMap.mem_toList_iff_getElem?_eq_some.1 hPair)
  show first.2.id < second.2.id
  rw [hNumber first hFirst, hNumber second hSecond]
  exact compareOfLessAndEq_eq_lt.1 hLess

/-- The rows that are stored are those of the houses, tile by tile. -/
theorem map_stored_tileRows (w : World) : w.tileRows.map TileRow.stored
    = w.houses.values.flatMap fun h =>
      (h.tiles.filter fun p => !(w.savedTrees p).isEmpty).map fun p =>
        ((h.id.toNat : Int), tileOctets w.catalog p (w.savedTrees p)) := by
  unfold tileRows savedTiles
  rw [List.map_map, List.map_flatMap]
  congr 1
  funext h
  -- A tile has a row if there is anything on it to save.
  induction h.tiles with
  | nil => rfl
  | cons p ps ih =>
    rw [List.filter_cons]
    cases hEmpty : (w.savedTrees p).isEmpty with
    | true =>
      have hNone : w.saveTile? h.id p = none := by
        unfold saveTile?
        exact if_pos hEmpty
      rw [List.filterMap_cons_none hNone, ih]
      rfl
    | false =>
      have hSome : w.saveTile? h.id p = some {
          house := h.id, items := (w.savedTrees p).length
          octets := tileOctets w.catalog p (w.savedTrees p) } := by
        unfold saveTile?
        exact if_neg (by rw [hEmpty]; exact Bool.false_ne_true)
      rw [List.filterMap_cons_some hSome, List.map_cons, ih]
      rfl

/-- A save of items that goes through saves all tiles. -/
theorem tilesSaved_of_saveItems (hw : w.Numbered) {a a' : Archive} {report : SaveReport}
    (h : w.saveItems a = .ok (report, a')) :
    report = w.saveReport ∧ TilesSaved w a.tables a'.tables := by
  obtain ⟨hReport, rfl⟩ := saveItems_eq_ok h
  exact ⟨hReport, map_stored_tileRows w, pairwise_id_houses hw, rfl⟩

/-- A save of houses that goes through saves all houses. -/
theorem housesSaved_of_saveHouses (hw : w.Numbered) {a a' : Archive} {report : HouseReport}
    (h : w.saveHouses a = .ok (report, a')) : HousesSaved w a.tables a'.tables := by
  obtain ⟨_, rfl⟩ := saveHouses_eq_ok h
  have hRows := getElem?_savedHouses hw a.tables.houses
  refine ⟨?_, ?_, pairwise_id_houses hw, fun id house hHouse => (hRows _).1 id house hHouse rfl,
    fun k => (hRows k).2, rfl⟩
  · show w.listRows.map ListRow.stored = _
    unfold listRows
    rw [List.map_flatMap]
    congr 1
    funext house
    rw [List.map_map]
    rfl
  · -- Rows are written for lists with a text only.
    intro row hRow
    obtain ⟨listRow, hMem, rfl⟩ := List.mem_map.1 hRow
    obtain ⟨id, house, _, _, hList⟩ := mem_listRows.1 hMem
    exact bne_iff_ne.1 (List.mem_filter.1 hList).2

/-! ## §2. Saving on a connection. -/

/-- Saves the house tiles. -/
def saveItemsOn (w : World) (r : Refusals) : Talk Connection SaveReport := do
  Talk.transaction r [.clearTiles, .insertTiles w.tileRows]
  return w.saveReport

/-- Saves the houses. -/
def saveHousesOn (w : World) (r : Refusals) : Talk Connection HouseReport := do
  Talk.transaction r w.houseStatements
  return { houses := w.houses.values.length, lists := w.listRows.length }

/-- A save on a connection ends like the save in one step, or it stores nothing. -/
structure FinishesAs {α : Type} (r : Refusals) (x : Talk Connection α) (c : Connection)
    (save : Except ArchiveError (α × Archive)) : Prop where
  /-- After an error there is stored what was stored before. -/
  failed : ∀ e, (x.finish c).1 = .error e → (x.finish c).2.stored = c.stored
  /-- Otherwise there is stored what the save in one step stores. -/
  saved : ∀ report, (x.finish c).1 = .ok report →
    ∃ a, save = .ok (report, a) ∧ (x.finish c).2.stored = a.tables
  /-- Where no statement fails, the two end in the same way. -/
  whole : (∀ n, r.breaks n = none) → (x.finish c).1 = save.map (·.1)

/-- A transaction with a report at its end. -/
theorem finishesAs_transaction {α : Type} {r : Refusals} {a : Archive} {c : Connection}
    (hSame : a.declines = r.declines) (hStored : c.stored = a.tables) (calls : List ArchiveCall)
    (report : α) : FinishesAs r (Talk.transaction r calls >>= fun _ => pure report) c
      (a.transact calls >>= fun a => .ok (report, a)) := by
  have hOutcome := Talk.transaction_outcome hSame hStored calls
  -- The report is made in the end, and asks nothing of the connection.
  have hFinish : (Talk.transaction r calls >>= fun _ => pure report : Talk Connection α).finish c
      = (((Talk.transaction r calls).on c).1.map fun _ => report,
        ((Talk.transaction r calls).on c).2.closed) := by
    unfold Talk.finish
    rw [Talk.on_bind]
    rcases (Talk.transaction r calls).on c with ⟨e | ⟨⟩, c'⟩ <;> rfl
  -- What is left open is discarded at the end, and that changes nothing that is stored.
  revert hOutcome hFinish
  rcases (Talk.transaction r calls).on c with ⟨e | ⟨⟩, c'⟩
  · intro hOutcome hFinish
    constructor
    case failed =>
      rw [hFinish]
      exact fun _ _ => (hOutcome.failed e rfl).trans hStored.symm
    case saved =>
      rw [hFinish]
      exact fun _ hOk => by cases hOk
    case whole =>
      intro hWhole
      have hResult := hOutcome.result hWhole
      rw [hFinish]
      -- Both ways of saving refuse the same calls, with the same error.
      cases hTransact : a.transact calls with
      | ok a' =>
        rw [hTransact] at hResult
        cases hResult
      | error e' =>
        rw [hTransact] at hResult
        cases hResult
        rfl
  · intro hOutcome hFinish
    -- All calls went through, so the archive has the tables that were worked on.
    obtain ⟨a', hTransact, hTables⟩ := hOutcome.done rfl
    rw [hTransact]
    constructor
    case failed =>
      rw [hFinish]
      exact fun _ hError => by cases hError
    case saved =>
      rw [hFinish]
      intro report' hOk
      obtain rfl := Except.ok.inj hOk
      exact ⟨a', rfl, hTables⟩
    case whole =>
      rw [hFinish]
      exact fun _ => rfl

/-- **Saving the house tiles statement by statement is saving them.** -/
theorem finishesAs_saveItems (w : World) {r : Refusals} {a : Archive} {c : Connection}
    (hSame : a.declines = r.declines) (hStored : c.stored = a.tables) :
    FinishesAs r (w.saveItemsOn r) c (w.saveItems a) :=
  finishesAs_transaction hSame hStored _ w.saveReport

/-- **Saving the houses statement by statement is saving them.** -/
theorem finishesAs_saveHouses (w : World) {r : Refusals} {a : Archive} {c : Connection}
    (hSame : a.declines = r.declines) (hStored : c.stored = a.tables) :
    FinishesAs r (w.saveHousesOn r) c (w.saveHouses a) :=
  finishesAs_transaction hSame hStored w.houseStatements _

/-- A save that goes through in one step goes through on a connection where no statement fails. -/
theorem FinishesAs.goesThrough {α : Type} {r : Refusals} {x : Talk Connection α} {c : Connection}
    {save : Except ArchiveError (α × Archive)} (h : FinishesAs r x c save)
    (hWhole : ∀ n, r.breaks n = none) {report : α} {a : Archive} (hSave : save = .ok (report, a)) :
    (x.finish c).1 = .ok report := by
  rw [h.whole hWhole, hSave]
  rfl

/-! ## §3. Loading step by step. -/

/-- Reads something from the archive. -/
def read {σ α : Type} (result : Except ArchiveError α) : Talk σ α :=
  ExceptT.mk (pure result)

/-- Loads the house tiles, row by row. -/
def loadItemsInto (a : Archive) : Talk Restoring Unit := do
  let rows ← read a.tileRows
  rows.forM fun row => modify (Restoring.restoreRow · row)

/-- Loads the houses, row by row. -/
def loadHousesInto (a : Archive) : Talk (World × ρ) HouseReport := do
  let rows ← read a.houseRows
  let lists ← read a.listRows
  let (w, _) ← get
  rows.forM fun row => modify fun s => (s.1.restoreHouse row, s.2)
  lists.forM fun row => modify fun s => s.1.setList row.house row.list row.text s.2
  return w.houseReport rows lists

/-- Changing the state again and again cannot fail. -/
theorem on_forM_modify {σ β : Type} (f : β → σ → σ) (bs : List β) (s : σ) :
    (bs.forM fun b => modify (f b) : Talk σ Unit).on s
      = (.ok (), bs.foldl (fun s b => f b s) s) := by
  induction bs generalizing s with
  | nil => rfl
  | cons b bs ih =>
    show ((modify (f b) : Talk σ Unit) >>= fun _ => bs.forM fun b => modify (f b)).on s = _
    rw [Talk.on_bind]
    exact ih (f b s)

/-- What is read changes nothing. -/
theorem on_read {σ α : Type} (result : Except ArchiveError α) (s : σ) :
    (read result : Talk σ α).on s = (result, s) :=
  rfl

/-- **Loading the house tiles row by row is loading them.**  It fails only where the rows cannot be
read, and then nothing has changed. -/
theorem on_loadItemsInto (w : World) (a : Archive) :
    (loadItemsInto a).on { world := w } = match a.tileRows with
      | .error e => (.error e, { world := w })
      | .ok rows => (.ok (), w.restoreRows rows) := by
  unfold loadItemsInto
  rw [Talk.on_bind, on_read]
  cases a.tileRows with
  | error e => rfl
  | ok rows => exact on_forM_modify (fun row s => Restoring.restoreRow s row) rows { world := w }

/-- **Loading the houses row by row is loading them.**  It fails only where the rows cannot be read,
and then nothing has changed. -/
theorem on_loadHousesInto (w : World) (a : Archive) (names : ρ) :
    (loadHousesInto a).on (w, names) = match a.houseRows, a.listRows with
      | .error e, _ => (.error e, (w, names))
      | .ok _, .error e => (.error e, (w, names))
      | .ok rows, .ok lists => (.ok (w.houseReport rows lists),
        (w.restoreHouses rows).restoreLists names lists) := by
  unfold loadHousesInto
  rw [Talk.on_bind, on_read]
  -- Both tables are read before anything is changed.
  cases a.houseRows with
  | error e => rfl
  | ok rows =>
    dsimp only
    rw [Talk.on_bind, on_read]
    cases a.listRows with
    | error e => rfl
    | ok lists =>
      dsimp only
      have hRows : ∀ (rows : List HouseRow) (w : World),
          rows.foldl (fun (s : World × ρ) row => (s.1.restoreHouse row, s.2)) (w, names)
            = (w.restoreHouses rows, names) := by
        intro rows
        induction rows with
        | nil => exact fun w => rfl
        | cons row rows ih => exact fun w => ih (w.restoreHouse row)
      rw [Talk.on_bind]
      show ((rows.forM fun row => modify fun s : World × ρ => (s.1.restoreHouse row, s.2) :
          Talk (World × ρ) Unit) >>= _).on (w, names) = _
      rw [Talk.on_bind, on_forM_modify fun row (s : World × ρ) => (s.1.restoreHouse row, s.2), hRows]
      dsimp only
      rw [Talk.on_bind, on_forM_modify fun (row : ListRow) (s : World × ρ) =>
        s.1.setList row.house row.list row.text s.2]
      rfl

/-! ## §4. All or nothing. -/

/-- **Saves and loads are all or nothing**, wherever the archive gives up.  A save that fails leaves
what is stored as it was, one that goes through stores what the world has, and it does go through
where nothing of the archive is in the way.  A load that fails leaves the world as it was, and only
rows that cannot be read make it fail. -/
theorem all_or_nothing (hw : w.Numbered) (r : Refusals) (c : Connection) (a : Archive)
    (names : ρ) :
    ((∀ e, ((w.saveItemsOn r).finish c).1 = .error e →
        ((w.saveItemsOn r).finish c).2.stored = c.stored)
      ∧ (∀ report, ((w.saveItemsOn r).finish c).1 = .ok report →
        report = w.saveReport ∧ TilesSaved w c.stored ((w.saveItemsOn r).finish c).2.stored)
      ∧ (r.Allows c [.clearTiles, .insertTiles w.tileRows] →
        ∃ report, ((w.saveItemsOn r).finish c).1 = .ok report))
    ∧ ((∀ e, ((w.saveHousesOn r).finish c).1 = .error e →
        ((w.saveHousesOn r).finish c).2.stored = c.stored)
      ∧ (∀ report, ((w.saveHousesOn r).finish c).1 = .ok report →
        HousesSaved w c.stored ((w.saveHousesOn r).finish c).2.stored)
      ∧ (r.Allows c w.houseStatements →
        ∃ report, ((w.saveHousesOn r).finish c).1 = .ok report))
    ∧ ((∀ e, ((loadItemsInto a).on { world := w }).1 = .error e →
        ((loadItemsInto a).on { world := w }).2 = { world := w })
      ∧ (((loadItemsInto a).on { world := w }).1 = .ok () → ∃ loaded, w.loadItems a = .ok loaded
        ∧ ((loadItemsInto a).on { world := w }).2.world = loaded.world)
      ∧ ∀ rows, a.tileRows = .ok rows → ((loadItemsInto a).on { world := w }).1 = .ok ())
    ∧ ((∀ e, ((loadHousesInto a).on (w, names)).1 = .error e →
        ((loadHousesInto a).on (w, names)).2 = (w, names))
      ∧ (∀ report, ((loadHousesInto a).on (w, names)).1 = .ok report → ∃ loaded,
        w.loadHouses a names = .ok (loaded, ((loadHousesInto a).on (w, names)).2.2)
          ∧ ((loadHousesInto a).on (w, names)).2.1 = loaded.world ∧ report = loaded.report)
      ∧ ∀ rows lists, a.houseRows = .ok rows → a.listRows = .ok lists →
        ∃ report, ((loadHousesInto a).on (w, names)).1 = .ok report) := by
  have hItems := finishesAs_saveItems w (r := r) (a := ⟨c.stored, r.declines⟩) (c := c) rfl rfl
  have hHouses := finishesAs_saveHouses w (r := r) (a := ⟨c.stored, r.declines⟩) (c := c) rfl rfl
  refine ⟨⟨hItems.failed, ?_, ?_⟩, ⟨hHouses.failed, ?_, ?_⟩, ?_, ?_⟩
  -- What the save in one step stores is what the world has.
  · intro report hOk
    obtain ⟨a', hSave, hTables⟩ := hItems.saved report hOk
    rw [hTables]
    exact tilesSaved_of_saveItems hw hSave
  · intro hAllows
    obtain ⟨a', hSave⟩ := saveItems_isOk (a := ⟨c.stored, r.declines⟩) hAllows.taken
      (hAllows.unsealed .tiles)
    exact ⟨_, hItems.goesThrough hAllows.whole hSave⟩
  · intro report hOk
    obtain ⟨a', hSave, hTables⟩ := hHouses.saved report hOk
    rw [hTables]
    exact housesSaved_of_saveHouses hw hSave
  · intro hAllows
    obtain ⟨report, a', hSave⟩ := saveHouses_isOk (a := ⟨c.stored, r.declines⟩) hAllows.taken
      (hAllows.unsealed .houses) (hAllows.unsealed .lists)
    exact ⟨report, hHouses.goesThrough hAllows.whole hSave⟩
  -- Only reading the rows can fail, and it comes before anything else.
  · rw [on_loadItemsInto]
    unfold loadItems
    cases a.tileRows with
    | error e => exact ⟨fun _ _ => rfl, fun hOk => (by cases hOk), fun _ hRows => by cases hRows⟩
    | ok rows => exact ⟨fun _ hError => (by cases hError), fun _ => ⟨_, rfl, rfl⟩, fun _ _ => rfl⟩
  · rw [on_loadHousesInto]
    unfold loadHouses
    cases a.houseRows with
    | error e =>
      exact ⟨fun _ _ => rfl, fun _ hOk => (by cases hOk), fun _ _ hRows => by cases hRows⟩
    | ok rows =>
      cases a.listRows with
      | error e =>
        exact ⟨fun _ _ => rfl, fun _ hOk => (by cases hOk), fun _ _ _ hLists => by cases hLists⟩
      | ok lists =>
        refine ⟨fun _ hError => (by cases hError), ?_, fun _ _ _ _ => ⟨_, rfl⟩⟩
        intro report hOk
        exact ⟨_, rfl, rfl, (Except.ok.inj hOk).symm⟩

/-- An archive that fails at the third statement. -/
def thirdFails : Refusals where
  breaks n := if n = 2 then some .sealed else none

/-- A connection to an archive with a house, a list and a tile. -/
def oldConnection : Connection where
  stored := {
    houses := Tables.withHouses {} [{ id := 1, owner := 9 }]
    lists := [(1, 256, "Eremo")]
    tiles := [(1, [])] }

theorem eq_error_of_isNone {ε α : Type} (x : Except ε α) (h : x.toOption.isNone = true) :
    ∃ e, x = .error e := by
  cases x with
  | error e => exact ⟨e, rfl⟩
  | ok a => cases h

/-- An archive with nothing in the way takes every transaction. -/
theorem allows_oldConnection (calls : List ArchiveCall) :
    ({} : Refusals).Allows oldConnection calls where
  taken _ _ := rfl
  whole _ := rfl
  unsealed _ := rfl

/-- The lists are cleared when the archive fails, and are still stored; the same world saved to the
same archive with nothing in the way replaces the row of the house. -/
theorem all_or_nothing_threeDoors :
    threeDoorsWorld.Numbered
      ∧ ((threeDoorsWorld.saveHousesOn thirdFails).finish oldConnection).1.toOption.isNone = true
      ∧ ((threeDoorsWorld.saveHousesOn thirdFails).finish oldConnection).2.stored
        = oldConnection.stored
      ∧ (∃ report, ((threeDoorsWorld.saveHousesOn {}).finish oldConnection).1 = .ok report)
      ∧ HousesSaved threeDoorsWorld oldConnection.stored
        ((threeDoorsWorld.saveHousesOn {}).finish oldConnection).2.stored
      ∧ (∃ report, ((threeDoorsWorld.saveItemsOn {}).finish oldConnection).1 = .ok report)
      ∧ TilesSaved threeDoorsWorld oldConnection.stored
        ((threeDoorsWorld.saveItemsOn {}).finish oldConnection).2.stored := by
  have hNumbered : threeDoorsWorld.Numbered := (Reached.drawn threeDoorsWorld_built).numbered
  have hFails : ((threeDoorsWorld.saveHousesOn thirdFails).finish
      oldConnection).1.toOption.isNone = true := by
    decide +kernel
  obtain ⟨e, hError⟩ := eq_error_of_isNone _ hFails
  obtain ⟨_, ⟨hFailed, _, _⟩, _⟩ :=
    all_or_nothing hNumbered thirdFails oldConnection oldArchive oneName
  -- The same saves with nothing in the way.
  obtain ⟨⟨_, hTiles, hItemsGo⟩, ⟨_, hHouses, hHousesGo⟩, _⟩ :=
    all_or_nothing hNumbered {} oldConnection oldArchive oneName
  obtain ⟨tileReport, hTilesOk⟩ := hItemsGo (allows_oldConnection _)
  obtain ⟨houseReport, hHousesOk⟩ := hHousesGo (allows_oldConnection _)
  exact ⟨hNumbered, hFails, hFailed e hError, ⟨houseReport, hHousesOk⟩,
    hHouses houseReport hHousesOk, ⟨tileReport, hTilesOk⟩, (hTiles tileReport hTilesOk).2⟩

end World

end Homestead
