/-
  Homestead.Proofs.World.RowsApart
  ────────────────────────────────
  **ROWS FOR DIFFERENT TILES DO NOT MEET.**

  A row reads and changes what lies on its own tile and nothing else, so
  rows for different tiles may be brought back in either order: the tiles
  and the report come out the same.  Of a list of rows only the order of
  those for one tile counts.  That includes rows without a head, which are
  for no tile, rows for tiles that are not there, and rows that stop at a
  record that cannot be read.

  Main results:
    * `spared_restoreRow` — what a row leaves alone;
    * `restoreRow_step` — what it does depends on its tile;
    * `agree_swap` — two rows in either order;
    * `Reached.rows_apart` — rows in another order.
-/
import Homestead.Proofs.World.BadRecord
import Homestead.Proofs.World.Twins

open Homestead.Stream

namespace Homestead

/-! ## §1. The tile of a row. -/

/-- The tile that a row is for, if the row has room for its head. -/
def TileRow.tile? (row : TileRow) : Option Position :=
  (World.Restoring.readHead (Reader.ofOctets row.data)).map (·.1.1)

/-- The rows are not for one tile. -/
def TileRow.Apart (a b : TileRow) : Prop :=
  ∀ p, a.tile? = some p → b.tile? ≠ some p

namespace World

namespace Restoring

variable {s s' : Restoring} {p q : Position} {row a b : TileRow}

/-- A row without a place has no head that could be read. -/
theorem readHead_of_tile?_eq_none (h : row.tile? = none) :
    readHead (Reader.ofOctets row.data) = none :=
  Option.map_eq_none_iff.1 h

/-- A row with a place has a head that names it. -/
theorem readHead_of_tile?_eq_some (h : row.tile? = some p) :
    ∃ count r, readHead (Reader.ofOctets row.data) = some ((p, count), r) := by
  obtain ⟨⟨⟨_, count⟩, r⟩, hHead, rfl⟩ := Option.map_eq_some_iff.1 h
  exact ⟨count, r, hHead⟩

/-- **A row for a tile with the same trees on it**, in two sound worlds with the same catalog. -/
theorem twins_restoreRow (hs : s.world.Sound) (hs' : s'.world.Sound)
    (hCatalog : s'.world.catalog = s.world.catalog) (hRow : row.tile? = some p)
    (hTile : (s.world.graph.tile? p).isSome = true) (hTile' : (s'.world.graph.tile? p).isSome = true)
    (hTrees : s'.world.treesOn p = s.world.treesOn p) :
    ∃ R, Twins s.world.graph p R s.report s'.report (restoreRow s row) (restoreRow s' row) := by
  obtain ⟨count, r, hHead⟩ := readHead_of_tile?_eq_some hRow
  rw [restoreRow_of_head hHead hTile, restoreRow_of_head hHead hTile']
  have hPaired := hs.consistent.twins_of_shows hs'.consistent hTile hTile' (hs.shows_treesOn _)
    (hTrees ▸ hs'.shows_treesOn _)
  have hBegun : Twins s.world.graph _ _ s.report s'.report s.begun s'.begun :=
    ⟨⟨hCatalog, hPaired⟩, .nil, { rows := 1 }, rfl, rfl⟩
  exact hBegun.placeAll row.house count.toNat count.toNat r hs hs'

/-- **What a row can do at all**: nothing to the world, or something to what belongs to its tile.
Then the tile it leaves is paired with itself. -/
theorem restoreRow_cases (hs : s.world.Sound) (row : TileRow) :
    (restoreRow s row).world = s.world
      ∨ ∃ p R, row.tile? = some p ∧ (s.world.graph.tile? p).isSome = true
        ∧ World.Twins s.world.graph p R (restoreRow s row).world (restoreRow s row).world := by
  cases hRow : row.tile? with
  | none => exact .inl (restoreRow_of_short s (readHead_of_tile?_eq_none hRow)).1
  | some p =>
    obtain ⟨count, r, hHead⟩ := readHead_of_tile?_eq_some hRow
    cases hTile : s.world.graph.tile? p with
    | none => exact .inl (restoreRow_of_missing hHead hTile).1
    | some t =>
      have hThere : (s.world.graph.tile? p).isSome = true := by
        rw [hTile]
        rfl
      -- The row is compared with itself in the same world.
      obtain ⟨R, hTwins⟩ := twins_restoreRow hs hs rfl hRow hThere hThere rfl
      exact .inr ⟨p, R, rfl, hThere, hTwins.world⟩

/-! ## §2. What a row leaves alone. -/

/-- What a row may change: what belongs to its tile. -/
def Touched (s : Restoring) (row : TileRow) (j : ItemId) : Prop :=
  ∃ p, row.tile? = some p ∧ s.world.graph.Belongs p j

/-- **A row changes what lies on its tile**, makes new items, and leaves all else alone. -/
theorem spared_restoreRow (hs : s.world.Sound) (row : TileRow) :
    Graph.Spared (s.Touched row) (fun p => row.tile? = some p) s.world.graph
      (restoreRow s row).world.graph := by
  rcases restoreRow_cases hs row with hSame | ⟨p, R, hRow, _, hTwins⟩
  · rw [hSame]
    exact ⟨fun _ _ => rfl, fun _ _ => rfl, Nat.le_refl _⟩
  · -- What belongs to the tile, as the pairing tells it, is what the row touches.
    have hSpared := hTwins.graph.spared
    constructor
    case outside =>
      intro j hj
      exact hSpared.outside j fun hBelongs => hj ⟨p, hRow, hBelongs⟩
    case tiles =>
      intro q hq
      refine hSpared.tiles q fun hEq => hq ?_
      rw [hEq, hRow]
    case next_le => exact hSpared.next_le

/-- Restoring a row keeps the world sound. -/
theorem keeps_restoreRow (hs : s.world.Sound) (row : TileRow) :
    Keeps s.world (restoreRow s row).world := by
  have hChanges : Changes anyBinding s.world (restoreRow s row).world :=
    changes_restoreRow hs fun _ _ => trivial
  refine ⟨hChanges.sound, hChanges.catalog, ?_⟩
  intro q
  rcases restoreRow_cases hs row with hSame | ⟨p, R, hRow, hThere, hTwins⟩
  · rw [hSame]
  · by_cases hq : q = p
    · rw [hq, hThere, hTwins.graph.isSome_tile?.1]
    · rw [hTwins.graph.spared.tiles q hq]

/-- Restoring rows keeps the world sound. -/
theorem keeps_restoreRows {w : World} (hw : w.Sound) (rows : List TileRow) :
    Keeps w (w.restoreRows rows).world := by
  -- The statement is about all rows, and the induction has to hold of any state that a row is
  -- restored into.
  have hFold : ∀ (rows : List TileRow) {s : Restoring}, s.world.Sound →
      Keeps s.world (rows.foldl restoreRow s).world := by
    intro rows
    induction rows with
    | nil => exact fun _ => Keeps.refl _
    | cons row rows ih =>
      intro s hs
      have hFirst := keeps_restoreRow hs row
      exact hFirst.trans (ih (hFirst.sound hs))
  exact hFold rows (s := { world := w }) hw

/-- **Other tiles stay as they are.** -/
theorem sameTile_restoreRow (hs : s.world.Sound) (hq : row.tile? ≠ some q) :
    s.world.graph.SameTile (restoreRow s row).world.graph q := by
  rcases restoreRow_cases hs row with hSame | ⟨p, R, hRow, _, hTwins⟩
  · rw [hSame]
    exact .refl _ q
  · refine hs.sameTile hTwins.graph.spared ?_
    rintro rfl
    exact hq hRow

/-- Rows of other tiles leave a tile, by induction over the rows. -/
theorem sameTile_restoreRows (rows : List TileRow) (hApart : ∀ row ∈ rows, row.tile? ≠ some q) :
    ∀ {s : Restoring}, s.world.Sound →
      s.world.graph.SameTile (rows.foldl restoreRow s).world.graph q := by
  induction rows with
  | nil => exact fun _ => .refl _ q
  | cons row rows ih =>
    intro s hs
    obtain ⟨hFirst, hRest⟩ := List.forall_mem_cons.1 hApart
    exact (sameTile_restoreRow hs hFirst).trans (ih hRest ((keeps_restoreRow hs row).sound hs))

/-- Trees on other tiles stay. -/
theorem treesOn_restoreRow (hs : s.world.Sound) (hq : row.tile? ≠ some q) :
    (restoreRow s row).world.treesOn q = s.world.treesOn q :=
  treesOn_of_sameTile hs ((keeps_restoreRow hs row).sound hs) (sameTile_restoreRow hs hq)

/-! ## §3. What a row depends on. -/

/-- **What a row does depends on its tile**: where the same trees lie on it, the row makes the same
trees of them, and adds the same to the report. -/
theorem restoreRow_step (row : TileRow) (hs : s.world.Sound) (hs' : s'.world.Sound)
    (hCatalog : s'.world.catalog = s.world.catalog)
    (hTile : ∀ p, row.tile? = some p →
      (s'.world.graph.tile? p).isSome = (s.world.graph.tile? p).isSome)
    (hTrees : ∀ p, row.tile? = some p → s'.world.treesOn p = s.world.treesOn p) :
    ∃ more, (restoreRow s row).report = s.report + more
      ∧ (restoreRow s' row).report = s'.report + more
      ∧ ∀ p, row.tile? = some p →
        (restoreRow s' row).world.treesOn p = (restoreRow s row).world.treesOn p := by
  -- A row is cut short, or names a tile that is missing, or names one that is there in both worlds.
  cases hRow : row.tile? with
  | none =>
    have hHead := readHead_of_tile?_eq_none hRow
    refine ⟨{ rows := 1, failed := 1 }, (restoreRow_of_short s hHead).2,
      (restoreRow_of_short s' hHead).2, ?_⟩
    intro p hp
    cases hp
  | some p =>
    have hTile := hTile p hRow
    have hTrees := hTrees p hRow
    cases hThere : s.world.graph.tile? p with
    | none =>
      have hThere' : s'.world.graph.tile? p = none := by
        rw [hThere] at hTile
        exact Option.isNone_iff_eq_none.1 (by simpa using hTile)
      obtain ⟨count, r, hHead⟩ := readHead_of_tile?_eq_some hRow
      obtain ⟨hWorld, hReport⟩ := restoreRow_of_missing hHead hThere
      obtain ⟨hWorld', hReport'⟩ := restoreRow_of_missing hHead hThere'
      refine ⟨{ rows := 1, skipped := 1 }, hReport, hReport', ?_⟩
      intro q hq
      obtain rfl := Option.some_inj.1 hq
      rw [hWorld, hWorld', hTrees]
    | some t =>
      have hSome : (s.world.graph.tile? p).isSome = true := by rw [hThere]; rfl
      obtain ⟨R, hTwins⟩ := twins_restoreRow hs hs' hCatalog hRow hSome (hTile.trans hSome) hTrees
      obtain ⟨more, hReport, hReport'⟩ := hTwins.report
      refine ⟨more, hReport, hReport', ?_⟩
      intro q hq
      obtain rfl := Option.some_inj.1 hq
      exact hTwins.world.treesOn_eq ((keeps_restoreRow hs row).sound hs)
        ((keeps_restoreRow hs' row).sound hs')

/-- Two loads have come to the same: there are the same trees on every tile, and the same has been
reported. -/
structure Agree (s s' : Restoring) : Prop where
  /-- The first world is sound. -/
  sound : s.world.Sound
  /-- So is the second one. -/
  sound' : s'.world.Sound
  /-- They have the same catalog. -/
  catalog : s'.world.catalog = s.world.catalog
  /-- They have the same tiles. -/
  tiles : ∀ p, (s'.world.graph.tile? p).isSome = (s.world.graph.tile? p).isSome
  /-- The same trees are on them. -/
  trees : ∀ p, s'.world.treesOn p = s.world.treesOn p
  /-- The same has been reported. -/
  report : s'.report = s.report

theorem Agree.refl (hs : s.world.Sound) : Agree s s where
  sound := hs
  sound' := hs
  catalog := rfl
  tiles _ := rfl
  trees _ := rfl
  report := rfl

/-- Agreeing carries over. -/
theorem Agree.trans {s'' : Restoring} (h : Agree s s') (h' : Agree s' s'') : Agree s s'' where
  sound := h.sound
  sound' := h'.sound'
  catalog := h'.catalog.trans h.catalog
  tiles p := (h'.tiles p).trans (h.tiles p)
  trees p := (h'.trees p).trans (h.trees p)
  report := h'.report.trans h.report

/-- The same row after what has come to the same. -/
theorem Agree.restoreRow (h : Agree s s') (row : TileRow) :
    Agree (restoreRow s row) (restoreRow s' row) := by
  have hKeeps := keeps_restoreRow h.sound row
  have hKeeps' := keeps_restoreRow h.sound' row
  obtain ⟨more, hReport, hReport', hTrees⟩ := restoreRow_step row h.sound h.sound'
    h.catalog (fun p _ => h.tiles p) (fun p _ => h.trees p)
  constructor
  case sound => exact hKeeps.sound h.sound
  case sound' => exact hKeeps'.sound h.sound'
  case catalog => rw [hKeeps.catalog, hKeeps'.catalog, h.catalog]
  case tiles =>
    intro p
    rw [hKeeps.tiles, hKeeps'.tiles, h.tiles]
  -- On the tile of the row the trees come to the same; on the others nothing happens.
  case trees =>
    intro p
    by_cases hRow : row.tile? = some p
    · exact hTrees p hRow
    · rw [treesOn_restoreRow h.sound hRow, treesOn_restoreRow h.sound' hRow, h.trees]
  case report => rw [hReport, hReport', h.report]

/-- Worlds that agree still do after the same rows. -/
theorem Agree.rows (h : Agree s s') (rows : List TileRow) :
    Agree (rows.foldl Restoring.restoreRow s) (rows.foldl Restoring.restoreRow s') := by
  induction rows generalizing s s' with
  | nil => exact h
  | cons row rows ih => exact ih (h.restoreRow row)

/-! ## §4. Rows in another order. -/

/-- **Two rows for different tiles come to the same in either order.** -/
theorem agree_swap (hs : s.world.Sound) (hApart : a.Apart b) :
    Agree (restoreRow (restoreRow s a) b) (restoreRow (restoreRow s b) a) := by
  have hA := keeps_restoreRow hs a
  have hB := keeps_restoreRow hs b
  have hAB := keeps_restoreRow (hA.sound hs) b
  have hBA := keeps_restoreRow (hB.sound hs) a
  -- Each row finds its tile as it would without the other one.
  obtain ⟨more, hReport, hReport', hTrees⟩ := restoreRow_step b hs (hA.sound hs)
    hA.catalog (fun p _ => hA.tiles p)
    (fun p hp => treesOn_restoreRow hs fun ha => hApart p ha hp)
  obtain ⟨more', hOther, hOther', hTrees'⟩ := restoreRow_step a hs (hB.sound hs)
    hB.catalog (fun p _ => hB.tiles p)
    (fun p hp => treesOn_restoreRow hs (hApart p hp))
  constructor
  case sound => exact hAB.sound (hA.sound hs)
  case sound' => exact hBA.sound (hB.sound hs)
  case catalog => rw [hAB.catalog, hBA.catalog, hA.catalog, hB.catalog]
  case tiles =>
    intro p
    rw [hAB.tiles, hBA.tiles, hA.tiles, hB.tiles]
  case trees =>
    intro p
    by_cases ha : a.tile? = some p
    · rw [hTrees' p ha, treesOn_restoreRow (hA.sound hs) (hApart p ha)]
    · rw [treesOn_restoreRow (hB.sound hs) ha]
      by_cases hb : b.tile? = some p
      · rw [hTrees p hb]
      · rw [treesOn_restoreRow hs hb, treesOn_restoreRow (hA.sound hs) hb,
          treesOn_restoreRow hs ha]
  case report => rw [hReport', hOther', hReport, hOther, add_right_comm]

/-- A row that is apart from those before it may as well come first. -/
theorem agree_bubble (hs : s.world.Sound) {before : List TileRow}
    (hApart : ∀ row ∈ before, a.Apart row) :
    Agree (before.foldl restoreRow (restoreRow s a)) (restoreRow (before.foldl restoreRow s) a) := by
  induction before generalizing s with
  | nil => exact .refl ((keeps_restoreRow hs a).sound hs)
  | cons row before ih =>
    obtain ⟨hFirst, hOthers⟩ := List.forall_mem_cons.1 hApart
    have hSwap := (agree_swap hs hFirst).rows before
    exact hSwap.trans (ih ((keeps_restoreRow hs row).sound hs) hOthers)

/-- Where the first of some rows is among the same rows in another order: those before it are not
for its tile. -/
theorem exists_apart {rows rows' : List TileRow} (hPerm : (a :: rows).Perm rows')
    (hOrder : ∀ p, (a :: rows).filter (·.tile? = some p) = rows'.filter (·.tile? = some p)) :
    ∃ before after, rows' = before ++ a :: after ∧ ∀ row ∈ before, a.Apart row := by
  cases ha : a.tile? with
  | none =>
    obtain ⟨before, after, rfl⟩ := List.append_of_mem (hPerm.subset List.mem_cons_self)
    refine ⟨before, after, rfl, ?_⟩
    intro row _ p hp
    rw [ha] at hp
    cases hp
  | some p =>
    -- In the order of its tile it is the first row there too.
    have hFirst := hOrder p
    rw [List.filter_cons_of_pos (by simpa using ha)] at hFirst
    obtain ⟨before, after, rfl, hBefore, _⟩ := List.filter_eq_cons_iff.1 hFirst.symm
    refine ⟨before, after, rfl, ?_⟩
    intro row hRow q hq
    rw [ha] at hq
    rw [← hq]
    simpa using hBefore row hRow

/-- Without that row the others are in the same order, tile by tile. -/
theorem order_rest {rows before after : List TileRow} (hApart : ∀ row ∈ before, a.Apart row)
    (hOrder : ∀ p, (a :: rows).filter (·.tile? = some p)
      = (before ++ a :: after).filter (·.tile? = some p)) (p : Position) :
    rows.filter (·.tile? = some p) = (before ++ after).filter (·.tile? = some p) := by
  have hHere := hOrder p
  rw [List.filter_append] at hHere ⊢
  -- On its own tile the row is the first one on both sides; on other tiles it does not count.
  by_cases ha : a.tile? = some p
  · have hNone : before.filter (·.tile? = some p) = [] := by
      rw [List.filter_eq_nil_iff]
      intro row hRow
      simpa using hApart row hRow p ha
    rw [List.filter_cons_of_pos (by simpa using ha), hNone,
      List.filter_cons_of_pos (by simpa using ha)] at hHere
    rw [hNone]
    exact (List.cons.inj hHere).2
  · rwa [List.filter_cons_of_neg (by simpa using ha),
      List.filter_cons_of_neg (by simpa using ha)] at hHere

/-- **Rows in another order come to the same**, as long as those for one tile keep theirs. -/
theorem agree_perm {rows rows' : List TileRow} (h : Agree s s') (hPerm : rows.Perm rows')
    (hOrder : ∀ p, rows.filter (·.tile? = some p) = rows'.filter (·.tile? = some p)) :
    Agree (rows.foldl restoreRow s) (rows'.foldl restoreRow s') := by
  induction rows generalizing s s' rows' with
  | nil =>
    obtain rfl := List.nil_perm.1 hPerm
    exact h
  | cons a rows ih =>
    obtain ⟨before, after, rfl, hApart⟩ := exists_apart hPerm hOrder
    -- The first row is moved to the front; the others are the same rows again.
    have hRest := (hPerm.trans List.perm_middle).cons_inv
    have hTail := ih (h.restoreRow a) hRest (order_rest hApart hOrder)
    have hMoved := (agree_bubble h.sound' hApart).rows after
    rw [List.foldl_append] at hTail
    rw [List.foldl_append, List.foldl_cons, List.foldl_cons]
    exact hTail.trans hMoved

end Restoring

/-! ## §5. Rows are independent. -/

open Restoring

variable {c : Catalog} {b : Blueprint} {w : World}

/-- **Rows for different tiles are independent.**  In a world that can be reached, rows that are
stored in another order, in which those for one tile have kept theirs, bring the same trees to every
tile and give the same report, whatever is wrong with some of them.  And whichever rows were brought
back before, a row changes no item that lies on another tile or nowhere, and no list of another
tile. -/
theorem Reached.rows_apart (hw : Reached c b w) {a a' : Archive} {rows rows' : List TileRow}
    (hRows : a.tileRows = .ok rows) (hRows' : a'.tileRows = .ok rows') (hPerm : rows.Perm rows')
    (hOrder : ∀ p, rows.filter (·.tile? = some p) = rows'.filter (·.tile? = some p)) :
    (∃ loaded loaded', w.loadItems a = .ok loaded ∧ w.loadItems a' = .ok loaded'
      ∧ (∀ p, loaded'.world.treesOn p = loaded.world.treesOn p)
      ∧ loaded'.report = loaded.report)
    ∧ ∀ before row s, w.restoreRows before = s →
      (∀ id n, s.world.graph.node? id = some n →
        (∀ p, row.tile? = some p → s.world.graph.tileOf? id ≠ some p) →
        (restoreRow s row).world.graph.node? id = some n)
      ∧ ∀ q, row.tile? ≠ some q →
        (restoreRow s row).world.graph.tile? q = s.world.graph.tile? q := by
  constructor
  · obtain ⟨loaded, hLoaded, hWorld, hReport⟩ := loadItems_of_tileRows w hRows
    obtain ⟨loaded', hLoaded', hWorld', hReport'⟩ := loadItems_of_tileRows w hRows'
    have hAgree := agree_perm (.refl (s := { world := w }) hw.sound) hPerm hOrder
    refine ⟨loaded, loaded', hLoaded, hLoaded', ?_, ?_⟩
    · intro p
      rw [hWorld, hWorld']
      exact hAgree.trees p
    · rw [hReport, hReport']
      exact hAgree.report
  · intro before row s hBefore
    have hSound : s.world.Sound := by
      have hAgree := (Agree.refl (s := { world := w }) hw.sound).rows before
      exact hBefore ▸ hAgree.sound
    have hSpared := spared_restoreRow hSound row
    refine ⟨?_, hSpared.tiles⟩
    intro id n hn hElsewhere
    rw [hSpared.outside id, hn]
    -- What belongs to the tile of the row is new, or lies on the tile.
    rintro ⟨p, hRow, hNew | ⟨root, hRoot, hReach⟩⟩
    · exact Nat.not_lt.2 hNew (hSound.consistent.numbered id n hn)
    · exact hElsewhere p hRow (hSound.consistent.tileOf?_of_reaches hRoot hReach)

/-! ## §6. Bags on two tiles. -/

/-- A house of two tiles with nothing on them. -/
def twoTiles : Blueprint where
  houses := [{ id := 1, name := "", entry := .zero }]
  tiles := [{ position := .zero, house := some 1, items := [] },
    { position := ⟨1, 0, 0⟩, house := some 1, items := [] }]

/-- The world of that house. -/
def twoTilesWorld : World :=
  (ofBlueprint bagCatalog twoTiles).1.toOption.getD {}

/-- A row with a bag in a bag. -/
def bagRow (p : Position) : TileRow where
  house := 1
  data := tileOctets bagCatalog p [.node bag [.node bag []]]

/-- A row without a head. -/
def shortRow : TileRow where
  house := 1
  data := [0, 0]

/-- The archive that these rows are stored in. -/
def storedRows (rows : List TileRow) : Archive where
  tables := { tiles := rows.map fun row => ((row.house.toNat : Int), row.data) }

/-- The rows that are stored are the rows that are read. -/
theorem tileRows_storedRows (rows : List TileRow) : (storedRows rows).tileRows = .ok rows :=
  Tables.tileRows_of_stored rfl

/-- Two rows for one tile, the first of which stops half-way, one for another tile, one for a tile
that is not there, and one without a head. -/
def mixedRows : List TileRow :=
  [brokenRow, bagRow .zero, bagRow ⟨1, 0, 0⟩, bagRow ⟨9, 9, 7⟩, shortRow]

/-- The same rows in another order. -/
def shuffledRows : List TileRow :=
  [shortRow, bagRow ⟨1, 0, 0⟩, brokenRow, bagRow ⟨9, 9, 7⟩, bagRow .zero]

/-- Three bags come to the first tile and two to the second one; two rows fail, and one is
skipped. -/
theorem rows_apart_bags :
    (ofBlueprint bagCatalog twoTiles).1 = .ok twoTilesWorld
      ∧ mixedRows.Perm shuffledRows
      ∧ (∀ p, mixedRows.filter (·.tile? = some p) = shuffledRows.filter (·.tile? = some p))
      ∧ ((twoTilesWorld.restoreRows mixedRows).world.treesOn .zero).map ItemTree.size = [1, 2]
      ∧ ((twoTilesWorld.restoreRows mixedRows).world.treesOn ⟨1, 0, 0⟩).map ItemTree.size = [2]
      ∧ (twoTilesWorld.restoreRows mixedRows).report.failed = 2
      ∧ (twoTilesWorld.restoreRows mixedRows).report.skipped = 1
      ∧ ∃ loaded loaded', twoTilesWorld.loadItems (storedRows mixedRows) = .ok loaded
        ∧ twoTilesWorld.loadItems (storedRows shuffledRows) = .ok loaded'
        ∧ (∀ p, loaded'.world.treesOn p = loaded.world.treesOn p)
        ∧ loaded'.report = loaded.report := by
  have hBuilds : (ofBlueprint bagCatalog twoTiles).1.toOption.isSome = true := by
    decide +kernel
  have hBuilt : (ofBlueprint bagCatalog twoTiles).1 = .ok twoTilesWorld := by
    unfold twoTilesWorld
    exact eq_ok_of_isSome (ofBlueprint bagCatalog twoTiles).1 ({} : World) hBuilds
  have hPerm : mixedRows.Perm shuffledRows := by
    decide +kernel
  have hTiles : mixedRows.map TileRow.tile?
      = [some .zero, some .zero, some ⟨1, 0, 0⟩, some ⟨9, 9, 7⟩, none] := by
    decide +kernel
  -- The rows of each tile come in the same order; there are two tiles to look at.
  have hOrder : ∀ p,
      mixedRows.filter (·.tile? = some p) = shuffledRows.filter (·.tile? = some p) := by
    intro p
    simp only [mixedRows, List.map_cons, List.map_nil, List.cons.injEq] at hTiles
    obtain ⟨hBroken, hZero, hOne, hNine, hShort, _⟩ := hTiles
    unfold mixedRows shuffledRows
    simp only [List.filter_cons, hBroken, hZero, hOne, hNine, hShort]
    by_cases hp : p = .zero
    · subst hp
      rfl
    · by_cases hp' : p = ⟨1, 0, 0⟩
      · subst hp'
        rfl
      · simp [Ne.symm hp, Ne.symm hp']
  have hReached : Reached bagCatalog twoTiles twoTilesWorld := .drawn hBuilt
  refine ⟨hBuilt, hPerm, hOrder, by decide +kernel, by decide +kernel, by decide +kernel,
    by decide +kernel, ?_⟩
  exact (hReached.rows_apart (tileRows_storedRows mixedRows) (tileRows_storedRows shuffledRows)
    hPerm hOrder).1

end World

end Homestead
