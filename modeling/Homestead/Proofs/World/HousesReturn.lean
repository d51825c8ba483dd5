/-
  Homestead.Proofs.World.HousesReturn
  ───────────────────────────────────
  **AFTER A RESTART EVERY HOUSE IS WHAT IT WAS.**

  Whatever is done to the houses of a map, once they are saved and loaded
  into a world that is built anew from the same blueprint, everybody finds
  them as they were: who has them, how the rent stands, who may enter and
  who may pass which door.  The archive may have had any rows before, as
  long as their numbers can be read.

  Main results:
    * `Tables.houseRows_eq`, `Tables.listRows_of_stored` — reading rows;
    * `houses_come_back` — saving, and loading after a restart.
-/
import Homestead.Proofs.Archive.Transact
import Homestead.Proofs.House.Tenancy
import Homestead.Proofs.World.Rejected

namespace Homestead

/-! ## §1. Reading rows. -/

/-- All numbers of the row can be read. -/
def StoredHouse.InRange (row : StoredHouse) : Prop :=
  ∀ n ∈ [row.id, row.owner, row.warnings, row.town, row.rent, row.size, row.beds],
    0 ≤ n ∧ n ≤ 4294967295

/-- The row as it is read if all its numbers can be. -/
def StoredHouse.loaded (row : StoredHouse) : HouseRow :=
  { id := UInt32.ofNat row.id.toNat, owner := UInt32.ofNat row.owner.toNat, paid := row.paid,
    warnings := UInt32.ofNat row.warnings.toNat, name := row.name,
    town := UInt32.ofNat row.town.toNat, rent := UInt32.ofNat row.rent.toNat,
    size := UInt32.ofNat row.size.toNat, beds := UInt32.ofNat row.beds.toNat }

/-- A stored house whose numbers are in range is read. -/
theorem StoredHouse.read_eq {row : StoredHouse} (h : row.InRange) : row.read = .ok row.loaded := by
  -- A column that is in range reads as its number.
  have hColumn : ∀ (column : String) (n : Int), 0 ≤ n ∧ n ≤ 4294967295 →
      readColumn .houses column n = .ok (UInt32.ofNat n.toNat) := by
    intro column n hn
    unfold readColumn
    rw [if_pos (by rw [Bool.and_eq_true, decide_eq_true_eq, decide_eq_true_eq]; exact hn)]
  simp only [InRange, List.forall_mem_cons] at h
  obtain ⟨hId, hOwner, hWarnings, hTown, hRent, hSize, hBeds, _⟩ := h
  unfold read
  rw [hColumn _ _ hId, hColumn _ _ hOwner, hColumn _ _ hWarnings, hColumn _ _ hTown,
    hColumn _ _ hRent, hColumn _ _ hSize, hColumn _ _ hBeds]
  rfl

/-- The row of a house has its numbers in range. -/
theorem HouseRow.inRange_stored (row : HouseRow) : row.stored.InRange := by
  have hColumn : ∀ n : UInt32, 0 ≤ (n.toNat : Int) ∧ (n.toNat : Int) ≤ 4294967295 := by
    intro n
    have hBound := n.toNat_lt
    omega
  simp only [StoredHouse.InRange, List.forall_mem_cons]
  exact ⟨hColumn _, hColumn _, hColumn _, hColumn _, hColumn _, hColumn _, hColumn _,
    fun _ hNone => absurd hNone List.not_mem_nil⟩

/-- The row of a house that is stored is the row that is loaded. -/
theorem HouseRow.loaded_stored (row : HouseRow) : row.stored.loaded = row := by
  simp only [StoredHouse.loaded, stored, Int.toNat_natCast, UInt32.ofNat_toNat]

namespace Tables

variable {t : Tables}

/-- The rows of houses stand under their numbers, and can be read. -/
def HousesInRange (t : Tables) : Prop :=
  ∀ (k : Int) (row : StoredHouse), t.houses[k]? = some row → row.id = k ∧ row.InRange

/-- Houses whose numbers are in range are all read. -/
theorem houseRows_eq (h : t.HousesInRange) :
    t.houseRows = .ok (t.houses.values.map StoredHouse.loaded) := by
  -- Row by row, since one that is out of range would fail all.
  have hRows : ∀ rows : List StoredHouse, (∀ row ∈ rows, row.InRange) →
      rows.mapM StoredHouse.read = .ok (rows.map StoredHouse.loaded) := by
    intro rows hAll
    induction rows with
    | nil => rfl
    | cons row rows ih =>
      obtain ⟨hRow, hRest⟩ := List.forall_mem_cons.1 hAll
      rw [List.mapM_cons, StoredHouse.read_eq hRow, ih hRest]
      rfl
  refine hRows t.houses.values ?_
  intro row hMem
  obtain ⟨k, hGet⟩ := World.mem_values_iff.1 hMem
  exact (h k row hGet).2

/-- The row of a house is the only one with its number. -/
theorem find?_houseRows (h : t.HousesInRange) {id : UInt32} {row : StoredHouse}
    (hRow : t.houses[(id.toNat : Int)]? = some row) :
    ((t.houses.values.map StoredHouse.loaded).reverse.find? (·.id = id)) = some row.loaded := by
  -- The key of a row is the number of its house, so the number tells the row.
  have hNumber : ∀ (k : Int) (other : StoredHouse), t.houses[k]? = some other →
      UInt32.ofNat other.id.toNat = id → k = id.toNat := by
    intro k other hOther hId
    obtain ⟨hKey, hRange⟩ := h k other hOther
    obtain ⟨hLow, hHigh⟩ := hRange other.id List.mem_cons_self
    have hNat : other.id.toNat = id.toNat := by
      rw [← hId, UInt32.toNat_ofNat_of_lt']
      show other.id.toNat < 4294967296
      omega
    omega
  have hId : row.loaded.id = id := by
    show UInt32.ofNat row.id.toNat = id
    rw [(h _ row hRow).1, Int.toNat_natCast, UInt32.ofNat_toNat]
  have hMem : row.loaded ∈ (t.houses.values.map StoredHouse.loaded).reverse :=
    List.mem_reverse.2 (List.mem_map.2 ⟨row, World.mem_values_iff.2 ⟨_, hRow⟩, rfl⟩)
  have hSome : ((t.houses.values.map StoredHouse.loaded).reverse.find? (·.id = id)).isSome = true :=
    List.find?_isSome.2 ⟨row.loaded, hMem, decide_eq_true hId⟩
  -- Some row is found; that it is this one follows from its number.
  obtain ⟨found, hFound⟩ := Option.isSome_iff_exists.1 hSome
  have hSame := List.find?_some hFound
  obtain ⟨other, hOther, rfl⟩ :=
    List.mem_map.1 (List.mem_reverse.1 (List.mem_of_find?_eq_some hFound))
  obtain ⟨k, hGet⟩ := World.mem_values_iff.1 hOther
  rw [hNumber k other hGet (of_decide_eq_true hSame), hRow] at hGet
  rw [hFound, Option.some_inj.1 hGet]

/-- The rows of lists read back as they were. -/
theorem listRows_of_stored {rows : List ListRow} (h : t.lists = rows.map ListRow.stored) :
    t.listRows = .ok rows := by
  unfold Tables.listRows
  rw [h]
  clear h
  induction rows with
  | nil => rfl
  | cons row rows ih =>
    rw [List.map_cons, List.mapM_cons, ih]
    show (do
      let first ← (do
        return ({
          house := ← readColumn .lists "house_id" row.house.toNat
          list := ← readColumn .lists "listid" row.list.toNat
          text := row.text } : ListRow))
      let rest ← .ok rows
      return first :: rest) = _
    -- Both columns were numbers of the right range when they were written.
    rw [readColumn_toNat, readColumn_toNat]
    rfl

end Tables

namespace World

variable {w : World} {a a' : Archive}

/-- Rows of houses can be read after the houses are saved if they could be before. -/
theorem housesInRange_saved {t t' : Tables} (hNumbered : w.Numbered) (h : t.HousesInRange)
    (hSaved : t'.houses = Tables.withHouses t.houses w.houses.values) : t'.HousesInRange := by
  intro k row hRow
  rw [hSaved] at hRow
  obtain ⟨hOwn, hOther⟩ := getElem?_savedHouses hNumbered t.houses k
  -- A row is the one of a house of the world, or it was there before.
  by_cases hWorld : ∃ id house, w.house? id = some house ∧ k = id.toNat
  · obtain ⟨id, house, hHouse, rfl⟩ := hWorld
    rw [hOwn id house hHouse rfl] at hRow
    obtain rfl := Option.some_inj.1 hRow
    refine ⟨?_, HouseRow.inRange_stored _⟩
    show (house.id.toNat : Int) = id.toNat
    rw [hNumbered id house hHouse]
  · rw [hOther fun id house hHouse hk => hWorld ⟨id, house, hHouse, hk⟩] at hRow
    exact h k row hRow

/-! ## §2. A restart. -/

/-- Houses are loaded from the rows that the archive gives. -/
theorem loadHouses_of_rows {ρ : Type} [Resolver ρ] {rows : List HouseRow} {lists : List ListRow}
    (hRows : a.houseRows = .ok rows) (hLists : a.listRows = .ok lists) (w : World) (names : ρ) :
    ∃ loaded, w.loadHouses a names
        = .ok (loaded, ((w.restoreHouses rows).restoreLists names lists).2)
      ∧ loaded.world = ((w.restoreHouses rows).restoreLists names lists).1 := by
  unfold loadHouses
  rw [hRows, hLists]
  exact ⟨_, rfl, rfl⟩

/-- **Every house is after a restart what it was before**, whatever was done to it and whatever
rows the archive had: owner, rent, warnings and lists are the same, and every visitor may do the
same. -/
theorem houses_come_back {c : Catalog} {b : Blueprint} {w : World} {names : NameSource}
    {a : Archive} (edits : List HouseEdit) (hBuilt : (ofBlueprint c b).1 = .ok w)
    (hRows : a.tables.HousesInRange)
    (hTaken : ∀ call ∈ .begin :: .commit :: (w.editHouses names edits).1.houseStatements,
      a.declines call = none)
    (hHouses : a.tables.isSealed .houses = false) (hLists : a.tables.isSealed .lists = false)
    (hRead : a.declines .houseRows = none ∧ a.declines .listRows = none) :
    ∃ report a' loaded, (w.editHouses names edits).1.saveHouses a = .ok (report, a')
      ∧ w.loadHouses a' names = .ok (loaded, names)
      ∧ ∀ id h, (w.editHouses names edits).1.house? id = some h →
        ∃ h', loaded.world.house? id = some h'
          ∧ h.SameTenants (w.editHouses names edits).1.graph h' loaded.world.graph := by
  have hFitted := fitted_ofBlueprint hBuilt
  have hSame := sameFittings_editHouses edits w names
  have hNumbered : (w.editHouses names edits).1.Numbered :=
    Numbered.of_sameFittings
      (fun id house hHouse => ((drawn_ofBlueprint hBuilt).houses id house hHouse).1) hSame
  have hWritten : ∀ place, (w.editHouses names edits).1.Written names place :=
    fun place => Written.of_edits edits (.inl (hFitted.listIn_eq place))
  generalize (w.editHouses names edits).1 = w₁ at *
  obtain ⟨report, a', hSaved⟩ := saveHouses_isOk hTaken hHouses hLists
  obtain ⟨_, rfl⟩ := saveHouses_eq_ok hSaved
  -- What is read is what was saved.
  generalize hTables : ({ a.tables with
    lists := w₁.listRows.map ListRow.stored
    houses := Tables.withHouses a.tables.houses w₁.houses.values } : Tables) = t at hSaved
  have hStored : t.houses = Tables.withHouses a.tables.houses w₁.houses.values := by
    rw [← hTables]
  have hInRange := housesInRange_saved hNumbered hRows hStored
  have hHouseRows : ({ a with tables := t } : Archive).houseRows
      = .ok (t.houses.values.map StoredHouse.loaded) :=
    bind_eq_ok.2 ⟨(), Archive.ask_eq_ok.2 hRead.1, Tables.houseRows_eq hInRange⟩
  have hListRows : ({ a with tables := t } : Archive).listRows = .ok w₁.listRows :=
    bind_eq_ok.2 ⟨(), Archive.ask_eq_ok.2 hRead.2, Tables.listRows_of_stored (by rw [← hTables])⟩
  obtain ⟨loaded, hLoaded, hWorld⟩ := loadHouses_of_rows hHouseRows hListRows w names
  rw [← editHouses_lists, names_editHouses_eq] at hLoaded
  refine ⟨report, _, loaded, hSaved, hLoaded, ?_⟩
  intro id h hHouse
  have hKept : t.houses[(id.toNat : Int)]? = some (houseRow h).stored := by
    rw [hStored]
    exact (getElem?_savedHouses hNumbered a.tables.houses id.toNat).1 id h hHouse rfl
  have hRow := Tables.find?_houseRows hInRange hKept
  rw [HouseRow.loaded_stored] at hRow
  rw [hWorld]
  exact sameTenants_restored hFitted hSame hNumbered hWritten hHouse hRow

/-! ## §3. A house with three doors. -/

/-- A catalog of one type: doors. -/
def doorCatalog : Catalog where
  types := Catalog.empty.types.insert 1 { id := 1, group := .door }
  keyed := Catalog.empty.keyed_insert { id := 1, group := .door }

/-- A door with a number. -/
def doorEntry (number : UInt32) : ItemEntry :=
  .mk { typeId := 1, doorId := number } []

/-- A house with two doors of one number, and one without a number. -/
def threeDoors : Blueprint where
  houses := [{ id := 1, name := "", entry := .zero }]
  tiles := [⟨.zero, some 1, [doorEntry 2, doorEntry 2, doorEntry 0]⟩]

/-- The world of that house. -/
def threeDoorsWorld : World :=
  (ofBlueprint doorCatalog threeDoors).1.toOption.getD {}

/-- The world with three doors is built from its map. -/
theorem threeDoorsWorld_built : (ofBlueprint doorCatalog threeDoors).1 = .ok threeDoorsWorld := by
  have hBuilds : (ofBlueprint doorCatalog threeDoors).1.toOption.isSome = true := by
    decide +kernel
  unfold threeDoorsWorld
  exact eq_ok_of_isSome (ofBlueprint doorCatalog threeDoors).1 ({} : World) hBuilds

/-- The house is sold, and the new owner writes lists. -/
def saleEdits : List HouseEdit :=
  [.owner 1 5, .list 1 2 "Nobody", .owner 1 7, .list 1 guestList "Eremo", .list 1 2 "Eremo",
    .list 1 0 "E*", .list 1 9 "Eremo", .paid 1 (-3), .warnings 1 2]

/-- One character has a name. -/
def oneName : NameSource where
  find?
    | .player, name => if name = "Eremo" then some 7 else none
    | .guild, _ => none

/-- An archive with a row of the house from before. -/
def oldArchive : Archive where
  tables := { houses := Tables.withHouses {} [{ id := 1, owner := 9 }] }

/-- The house that was sold comes back. -/
theorem houses_come_back_threeDoors :
    (ofBlueprint doorCatalog threeDoors).1 = .ok threeDoorsWorld
      ∧ (threeDoorsWorld.editHouses oneName saleEdits).1.listRows
        = [⟨1, guestList, "Eremo"⟩, ⟨1, 2, "Eremo"⟩, ⟨1, 0, "E*"⟩]
      ∧ ∃ report a' loaded,
        (threeDoorsWorld.editHouses oneName saleEdits).1.saveHouses oldArchive = .ok (report, a')
        ∧ threeDoorsWorld.loadHouses a' oneName = .ok (loaded, oneName)
        ∧ ∀ id h, (threeDoorsWorld.editHouses oneName saleEdits).1.house? id = some h →
          ∃ h', loaded.world.house? id = some h' ∧ h.SameTenants
            (threeDoorsWorld.editHouses oneName saleEdits).1.graph h' loaded.world.graph := by
  -- The archive has one old row, which is in range.
  have hRows : oldArchive.tables.HousesInRange := by
    intro k row hRow
    have hOld : oldArchive.tables.houses[k]?
        = if k = 1 then some (houseRow { id := 1, owner := 9 }).stored else none :=
      Tables.getElem?_insert_stored {} 1 k (houseRow { id := 1, owner := 9 }).stored
    rw [hOld] at hRow
    split_ifs at hRow with hk
    obtain rfl := Option.some_inj.1 hRow
    exact ⟨hk.symm, HouseRow.inRange_stored _⟩
  exact ⟨threeDoorsWorld_built, by decide +kernel, houses_come_back saleEdits threeDoorsWorld_built
    hRows (fun _ _ => rfl) rfl rfl ⟨rfl, rfl⟩⟩

end World

end Homestead
