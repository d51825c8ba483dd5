/-
  Homestead.Proofs.Archive.Transact
  ─────────────────────────────────
  **WHAT IS IN THE ARCHIVE AFTER A TRANSACTION.**

  A transaction that goes through was declined at no call, and has done to
  the tables what its statements say.  So after the houses are saved the
  table of lists has the lists of the world and nothing else, and the table
  of houses has the row of every house of the world, besides the rows of
  other houses that it had before.

  Main results:
    * `Archive.transact_iff` — when a transaction goes through;
    * `saveItems_eq_ok`, `saveHouses_eq_ok` — what is saved then;
    * `saveItems_isOk`, `saveHouses_isOk` — when a save goes through;
    * `getElem?_savedHouses` — the rows of houses.
-/
import Homestead.Proofs.House.Edits

namespace Homestead

namespace Archive

/-! ## §1. Transactions. -/

variable {a a' : Archive}

/-- A call goes through if it is not declined. -/
theorem ask_eq_ok {call : ArchiveCall} : a.ask call = .ok () ↔ a.declines call = none := by
  unfold ask
  cases a.declines call <;> simp

/-- A statement is carried out if it is not declined and the tables can take it. -/
theorem execute_eq_ok {t t' : Tables} {call : ArchiveCall} :
    a.execute t call = .ok t' ↔ a.declines call = none ∧ t.execute call = .ok t' := by
  unfold execute
  rw [bind_eq_ok]
  constructor
  · rintro ⟨_, hAsk, hExecute⟩
    exact ⟨ask_eq_ok.1 hAsk, hExecute⟩
  · rintro ⟨hTaken, hExecute⟩
    exact ⟨(), ask_eq_ok.2 hTaken, hExecute⟩

/-- Statements go through if none is declined and the tables take each. -/
theorem foldlM_execute_eq_ok {t' : Tables} (calls : List ArchiveCall) {t : Tables} :
    calls.foldlM a.execute t = .ok t'
      ↔ (∀ call ∈ calls, a.declines call = none) ∧ calls.foldlM Tables.execute t = .ok t' := by
  induction calls generalizing t with
  | nil => exact ⟨fun h => ⟨fun _ hMem => absurd hMem List.not_mem_nil, h⟩, fun h => h.2⟩
  | cons call calls ih =>
    rw [List.foldlM_cons, List.foldlM_cons, List.forall_mem_cons, bind_eq_ok, bind_eq_ok]
    constructor
    · rintro ⟨t₁, hFirst, hRest⟩
      obtain ⟨hTaken, hExecute⟩ := execute_eq_ok.1 hFirst
      obtain ⟨hAll, hOthers⟩ := ih.1 hRest
      exact ⟨⟨hTaken, hAll⟩, t₁, hExecute, hOthers⟩
    · rintro ⟨⟨hTaken, hAll⟩, t₁, hExecute, hOthers⟩
      exact ⟨t₁, execute_eq_ok.2 ⟨hTaken, hExecute⟩, ih.2 ⟨hAll, hOthers⟩⟩

/-- **A transaction goes through if no call is declined and the tables take every statement.** -/
theorem transact_iff {calls : List ArchiveCall} :
    a.transact calls = .ok a' ↔ a.declines .begin = none ∧ a.declines .commit = none
      ∧ (∀ call ∈ calls, a.declines call = none)
      ∧ ∃ t, calls.foldlM Tables.execute a.tables = .ok t ∧ a' = { a with tables := t } := by
  unfold transact
  rw [bind_eq_ok]
  constructor
  · -- The three steps: to begin, the statements, and to commit.
    rintro ⟨_, hBegin, h⟩
    obtain ⟨t, hExecute, h⟩ := bind_eq_ok.1 h
    obtain ⟨_, hCommit, h⟩ := bind_eq_ok.1 h
    obtain ⟨hAll, hTables⟩ := (foldlM_execute_eq_ok calls).1 hExecute
    exact ⟨ask_eq_ok.1 hBegin, ask_eq_ok.1 hCommit, hAll, t, hTables, (Except.ok.inj h).symm⟩
  · rintro ⟨hBegin, hCommit, hAll, t, hTables, rfl⟩
    refine ⟨(), ask_eq_ok.2 hBegin, bind_eq_ok.2 ⟨t, ?_, ?_⟩⟩
    · exact (foldlM_execute_eq_ok calls).2 ⟨hAll, hTables⟩
    · exact bind_eq_ok.2 ⟨(), ask_eq_ok.2 hCommit, rfl⟩

end Archive

/-! ## §2. Tables. -/

/-- The row of a house tile as it is stored. -/
def TileRow.stored (row : TileRow) : Int × List UInt8 :=
  ((row.house.toNat : Int), row.data)

/-- The row of a list as it is stored. -/
def ListRow.stored (row : ListRow) : Int × Int × String :=
  ((row.house.toNat : Int), (row.list.toNat : Int), row.text)

namespace Tables

variable {t t' : Tables}

/-- Rows of tiles are added to an open table. -/
theorem execute_insertTiles_of_open (rows : List TileRow) (hOpen : t.isSealed .tiles = false) :
    t.execute (.insertTiles rows) = .ok { t with tiles := t.tiles ++ rows.map TileRow.stored } := by
  unfold execute
  dsimp only
  rw [hOpen, if_neg Bool.false_ne_true]
  split_ifs with hNone
  · rw [List.isEmpty_iff.1 hNone, List.map_nil, List.append_nil]
  · rfl

/-- Rows of lists are added to an open table. -/
theorem execute_insertLists_of_open (rows : List ListRow) (hOpen : t.isSealed .lists = false) :
    t.execute (.insertLists rows) = .ok { t with lists := t.lists ++ rows.map ListRow.stored } := by
  unfold execute
  dsimp only
  rw [hOpen, if_neg Bool.false_ne_true]
  split_ifs with hNone
  · rw [List.isEmpty_iff.1 hNone, List.map_nil, List.append_nil]
  · rfl

/-- Where rows of tiles were inserted, they were added and nothing else was. -/
theorem execute_insertTiles {rows : List TileRow} (h : t.execute (.insertTiles rows) = .ok t') :
    t' = { t with tiles := t.tiles ++ rows.map TileRow.stored } := by
  unfold execute at h
  dsimp only at h
  split_ifs at h with hNone
  · rw [← Except.ok.inj h, List.isEmpty_iff.1 hNone, List.map_nil, List.append_nil]
  · exact (Except.ok.inj h).symm

/-- Where rows of lists were inserted, they were added and nothing else was. -/
theorem execute_insertLists {rows : List ListRow} (h : t.execute (.insertLists rows) = .ok t') :
    t' = { t with lists := t.lists ++ rows.map ListRow.stored } := by
  unfold execute at h
  dsimp only at h
  split_ifs at h with hNone
  · rw [← Except.ok.inj h, List.isEmpty_iff.1 hNone, List.map_nil, List.append_nil]
  · exact (Except.ok.inj h).symm

/-- Rows of houses put in their places, one after another. -/
def withHouses (houses : Std.TreeMap Int StoredHouse) (hs : List House) :
    Std.TreeMap Int StoredHouse :=
  hs.foldl (fun rows h => rows.insert h.id.toNat (World.houseRow h).stored) houses

/-- Where houses were written, each replaced the row of its number, and nothing else was done. -/
theorem execute_upsertHouses (hs : List House)
    (h : (hs.map fun h => ArchiveCall.upsertHouse (World.houseRow h)).foldlM execute t = .ok t') :
    t' = { t with houses := withHouses t.houses hs } := by
  induction hs generalizing t with
  | nil => exact (Except.ok.inj h).symm
  | cons house hs ih =>
    rw [List.map_cons, List.foldlM_cons] at h
    obtain ⟨t₁, hFirst, hRest⟩ := bind_eq_ok.1 h
    unfold execute at hFirst
    dsimp only at hFirst
    split_ifs at hFirst
    rw [ih hRest, ← Except.ok.inj hFirst]
    rfl

/-- Houses are written into an open table. -/
theorem execute_upsertHouses_of_open (hs : List House) (hOpen : t.isSealed .houses = false) :
    (hs.map fun h => ArchiveCall.upsertHouse (World.houseRow h)).foldlM execute t
      = .ok { t with houses := withHouses t.houses hs } := by
  induction hs generalizing t with
  | nil => rfl
  | cons house hs ih =>
    have hFirst : t.execute (.upsertHouse (World.houseRow house)) = .ok { t with
        houses := t.houses.insert (World.houseRow house).stored.id (World.houseRow house).stored } := by
      unfold execute
      dsimp only
      rw [hOpen, if_neg Bool.false_ne_true]
    rw [List.map_cons, List.foldlM_cons, hFirst]
    exact ih hOpen

/-- A row that is written is found under its own number. -/
theorem getElem?_insert_stored (houses : Std.TreeMap Int StoredHouse) (id k : Int)
    (row : StoredHouse) : (houses.insert id row)[k]? = if k = id then some row else houses[k]? := by
  rw [Std.TreeMap.getElem?_insert]
  by_cases hk : k = id
  · rw [if_pos (by rw [hk]; exact Std.ReflCmp.compare_self), if_pos hk]
  · rw [if_neg fun h => hk (Std.LawfulEqCmp.eq_of_compare h).symm, if_neg hk]

/-- Of the houses that are put in their places, the last one with a number counts. -/
theorem getElem?_withHouses (hs : List House) (houses : Std.TreeMap Int StoredHouse) (k : Int) :
    (withHouses houses hs)[k]?
      = ((hs.reverse.find? fun h => ((h.id.toNat : Int)) = k).map
          fun h => (World.houseRow h).stored).or houses[k]? := by
  induction hs generalizing houses with
  | nil => rfl
  | cons h hs ih =>
    -- Later houses are put over earlier ones.
    have hAgain : withHouses houses (h :: hs)
        = withHouses (houses.insert h.id.toNat (World.houseRow h).stored) hs := rfl
    rw [hAgain, ih, getElem?_insert_stored, List.reverse_cons, List.find?_append,
      List.find?_singleton]
    cases hs.reverse.find? fun h => ((h.id.toNat : Int)) = k with
    | some last => rfl
    | none =>
      by_cases hk : k = h.id.toNat
      · simp [hk]
      · simp [hk, Ne.symm hk]

end Tables

namespace World

variable {w : World} {a a' : Archive}

/-! ## §3. Saving. -/

/-- **What is in the archive once the house tiles are saved.** -/
theorem saveItems_eq_ok {report : SaveReport} (h : w.saveItems a = .ok (report, a')) :
    report = w.saveReport
      ∧ a' = { a with tables := { a.tables with tiles := w.tileRows.map TileRow.stored } } := by
  unfold saveItems at h
  obtain ⟨saved, hTransact, hPair⟩ := bind_eq_ok.1 h
  obtain ⟨rfl, rfl⟩ := Prod.mk.inj (Except.ok.inj hPair)
  obtain ⟨_, _, _, t, hTables, rfl⟩ := Archive.transact_iff.1 hTransact
  -- Two statements: all rows go, and the new ones come.
  rw [List.foldlM_cons] at hTables
  obtain ⟨t₁, hCleared, hRest⟩ := bind_eq_ok.1 hTables
  rw [List.foldlM_cons] at hRest
  obtain ⟨t₂, hInserted, hDone⟩ := bind_eq_ok.1 hRest
  obtain rfl := Except.ok.inj hCleared
  obtain rfl := Except.ok.inj hDone
  rw [Tables.execute_insertTiles hInserted]
  exact ⟨rfl, rfl⟩

/-- **What is in the archive once the houses are saved.** -/
theorem saveHouses_eq_ok {report : HouseReport} (h : w.saveHouses a = .ok (report, a')) :
    report = { houses := w.houses.values.length, lists := w.listRows.length }
      ∧ a' = { a with tables := { a.tables with
          lists := w.listRows.map ListRow.stored
          houses := Tables.withHouses a.tables.houses w.houses.values } } := by
  unfold saveHouses at h
  obtain ⟨saved, hTransact, hPair⟩ := bind_eq_ok.1 h
  obtain ⟨rfl, rfl⟩ := Prod.mk.inj (Except.ok.inj hPair)
  obtain ⟨_, _, _, t, hTables, rfl⟩ := Archive.transact_iff.1 hTransact
  -- Lists are cleared first and written last; the rows of houses come in between.
  rw [List.cons_append, List.foldlM_cons] at hTables
  obtain ⟨t₁, hCleared, hRest⟩ := bind_eq_ok.1 hTables
  rw [List.foldlM_append] at hRest
  obtain ⟨t₂, hUpserted, hLast⟩ := bind_eq_ok.1 hRest
  rw [List.foldlM_cons] at hLast
  obtain ⟨t₃, hInserted, hDone⟩ := bind_eq_ok.1 hLast
  obtain rfl := Except.ok.inj hCleared
  obtain rfl := Except.ok.inj hDone
  rw [Tables.execute_insertLists hInserted, Tables.execute_upsertHouses _ hUpserted]
  exact ⟨rfl, rfl⟩

/-- **Saving the house tiles goes through** when the archive declines none of its calls and the
table of tiles takes new rows. -/
theorem saveItems_isOk
    (hTaken : ∀ call ∈ .begin :: .commit :: [.clearTiles, .insertTiles w.tileRows],
      a.declines call = none) (hTiles : a.tables.isSealed .tiles = false) :
    ∃ a', w.saveItems a = .ok (w.saveReport, a') := by
  obtain ⟨hBegin, hOthers⟩ := List.forall_mem_cons.1 hTaken
  obtain ⟨hCommit, hStatements⟩ := List.forall_mem_cons.1 hOthers
  -- Once the table is cleared it takes the rows, as it is not sealed.
  have hInserted := Tables.execute_insertTiles_of_open (t := { a.tables with tiles := [] })
    w.tileRows hTiles
  have hTables : [.clearTiles, .insertTiles w.tileRows].foldlM Tables.execute a.tables
      = .ok { a.tables with tiles := [] ++ w.tileRows.map TileRow.stored } := by
    rw [List.foldlM_cons]
    refine bind_eq_ok.2 ⟨{ a.tables with tiles := [] }, rfl, ?_⟩
    rw [List.foldlM_cons, hInserted]
    rfl
  have hSaved := Archive.transact_iff.2 ⟨hBegin, hCommit, hStatements, _, hTables, rfl⟩
  exact ⟨_, bind_eq_ok.2 ⟨_, hSaved, rfl⟩⟩

/-- The statements that saving the houses makes. -/
def houseStatements (w : World) : List ArchiveCall :=
  .clearLists :: w.houses.values.map (fun h => .upsertHouse (houseRow h))
    ++ [.insertLists w.listRows]

/-- **Saving the houses goes through** when the archive declines none of its calls and the tables
take new rows. -/
theorem saveHouses_isOk (hTaken : ∀ call ∈ .begin :: .commit :: w.houseStatements,
      a.declines call = none) (hHouses : a.tables.isSealed .houses = false)
    (hLists : a.tables.isSealed .lists = false) :
    ∃ report a', w.saveHouses a = .ok (report, a') := by
  obtain ⟨hBegin, hOthers⟩ := List.forall_mem_cons.1 hTaken
  obtain ⟨hCommit, hStatements⟩ := List.forall_mem_cons.1 hOthers
  have hUpserts := Tables.execute_upsertHouses_of_open (t := { a.tables with lists := [] })
    w.houses.values hHouses
  obtain ⟨t, hInserted⟩ : ∃ t, Tables.execute { a.tables with
      lists := [], houses := Tables.withHouses a.tables.houses w.houses.values }
      (.insertLists w.listRows) = .ok t :=
    ⟨_, Tables.execute_insertLists_of_open w.listRows hLists⟩
  -- The lists are cleared, the houses are written, and the new lists are inserted.
  have hTables : w.houseStatements.foldlM Tables.execute a.tables = .ok t := by
    unfold houseStatements
    rw [List.cons_append, List.foldlM_cons]
    refine bind_eq_ok.2 ⟨_, rfl, ?_⟩
    rw [List.foldlM_append, hUpserts]
    refine bind_eq_ok.2 ⟨_, rfl, ?_⟩
    rw [List.foldlM_cons, hInserted]
    rfl
  have hSaved := Archive.transact_iff.2 ⟨hBegin, hCommit, hStatements, t, hTables, rfl⟩
  exact ⟨_, _, bind_eq_ok.2 ⟨_, hSaved, rfl⟩⟩

/-- Every house stands under its own number. -/
theorem find?_values (hNumbered : w.Numbered) (id : UInt32) :
    (w.houses.values.reverse.find? fun h => ((h.id.toNat : Int)) = id.toNat) = w.house? id := by
  cases hHouse : w.house? id with
  | none =>
    rw [List.find?_eq_none]
    intro h hMem hSame
    -- A house with this number would stand under it.
    obtain ⟨id', hGet⟩ := mem_houses_values (List.mem_reverse.1 hMem)
    have hId : h.id = id := UInt32.toNat_inj.1 (Int.ofNat_inj.1 (of_decide_eq_true hSame))
    rw [← hId, hNumbered id' h hGet, hGet] at hHouse
    cases hHouse
  | some house =>
    have hMem : house ∈ w.houses.values := mem_values_iff.2 ⟨id, hHouse⟩
    have hSome : (w.houses.values.reverse.find? fun h =>
        ((h.id.toNat : Int)) = id.toNat).isSome = true := by
      rw [List.find?_isSome]
      exact ⟨house, List.mem_reverse.2 hMem, by simp [hNumbered id house hHouse]⟩
    obtain ⟨found, hFound⟩ := Option.isSome_iff_exists.1 hSome
    obtain ⟨id', hGet⟩ := mem_houses_values (List.mem_reverse.1 (List.mem_of_find?_eq_some hFound))
    have hSame := List.find?_some hFound
    have hId : found.id = id := UInt32.toNat_inj.1 (Int.ofNat_inj.1 (of_decide_eq_true hSame))
    rw [← hId, hNumbered id' found hGet, hGet] at hHouse
    rw [hFound, hHouse]

/-- **The rows of houses that are saved**: of every house of the world its own, of other houses the
ones that were there. -/
theorem getElem?_savedHouses (hNumbered : w.Numbered)
    (houses : Std.TreeMap Int StoredHouse) (k : Int) :
    (∀ id h, w.house? id = some h → k = id.toNat →
      (Tables.withHouses houses w.houses.values)[k]? = some (houseRow h).stored)
    ∧ ((∀ id h, w.house? id = some h → k ≠ id.toNat) →
      (Tables.withHouses houses w.houses.values)[k]? = houses[k]?) := by
  constructor
  · rintro id h hHouse rfl
    rw [Tables.getElem?_withHouses, find?_values hNumbered, hHouse]
    rfl
  · intro hOther
    -- No house of the world has this number, so nothing is put in that place.
    have hNone : (w.houses.values.reverse.find? fun h => ((h.id.toNat : Int)) = k) = none := by
      rw [List.find?_eq_none]
      intro h hMem hSame
      obtain ⟨id, hGet⟩ := mem_houses_values (List.mem_reverse.1 hMem)
      refine hOther id h hGet ?_
      rw [← hNumbered id h hGet]
      exact (by simpa using hSame : ((h.id.toNat : Int)) = k).symm
    rw [Tables.getElem?_withHouses, hNone]
    rfl

end World

end Homestead
