/-
  Homestead.Proofs.World.Restart
  ──────────────────────────────
  **AFTER A RESTART WHAT MOVES IS THERE AGAIN.**

  Whatever is done to the items of a world, once it is saved and read back
  into a world that is built anew from the same blueprint, the same things
  lie on the tiles of its houses, in the same order.  This is so as long as
  the catalog knows the types of all of them, none lies too deep, and those
  that decay have time left.

  Main results:
    * `Awaiting.row`, `Awaiting.rows` — one row, and all rows of a world;
    * `moved_items_come_back` — saving, and loading after a restart.
-/
import Homestead.Proofs.World.Rejected
import Homestead.Proofs.World.Returning

namespace Homestead

namespace World

/-! ## §1. All rows. -/

/-- What moves is saved. -/
theorem filter_savedTrees (w : World) (p : Position) :
    (w.savedTrees p).filter w.isMoveable = w.movedOn p := by
  -- What moves is saved, whatever else it is.
  have hSaved : ∀ t : ItemTree, w.isMoveable t = true → t.isSaved w.catalog = true := by
    intro t hMoves
    obtain ⟨ty, hType, hMoveable⟩ := isMoveable_iff.1 hMoves
    unfold ItemTree.isSaved
    rw [hType, Option.map_some, Option.getD_some, hMoveable]
    rfl
  rw [savedTrees_eq, movedOn, List.filter_filter]
  refine List.filter_congr ?_
  intro t _
  cases hMoves : w.isMoveable t with
  | false => rfl
  | true => rw [hSaved t hMoves, Bool.and_self]

/-- The trees that are saved of a tile come back, if their types can be used and they have time
left or no time at all. -/
theorem Sound.returns_savedTrees {w : World} (hw : w.Sound) (p : Position)
    (hLength : (ItemTree.encodeAll w.catalog (w.savedTrees p)).length < 4294967296)
    (hKnown : ∀ t ∈ w.treesOn p,
      t.Every fun i _ => (w.catalog.usable? i.typeId).isSome ∧ i.Unspent w.catalog) :
    ItemTree.EveryOf (Item.Returns w.catalog) (w.savedTrees p) := by
  have hReadable := hw.readable_savedTrees p hLength
  have hTyped := Graph.ShowsAll.everyOf_item hw.typed (hw.shows_treesOn p)
  rw [ItemTree.everyOf_iff] at hReadable hTyped ⊢
  intro t ht
  have hOnTile := List.mem_of_mem_filter ht
  -- Readable in writing, typed as the catalog says, and known with time left: all three for every
  -- item of the tree.
  have hAll := ItemTree.Every.and t (ItemTree.Every.and t (hKnown t hOnTile) (hTyped t hOnTile))
    (hReadable t ht)
  refine hAll.imp ?_
  rintro i contents ⟨⟨⟨hUsable, hUnspent⟩, hType⟩, hReads⟩
  obtain ⟨ty, hHost⟩ := Option.isSome_iff_exists.1 hUsable
  exact ⟨⟨⟨ty, hHost, hType ty (Catalog.get?_of_usable? hHost)⟩, hReads.hollow, hReads.counted⟩,
    hUnspent⟩

/-- All that is saved of the tile can come back. -/
structure Returnable (w : World) (p : Position) : Prop where
  /-- Types can be used, and there is time left. -/
  returns : ItemTree.EveryOf (Item.Returns w.catalog) (w.savedTrees p)
  /-- Nothing lies too deep. -/
  shallow : ∀ t ∈ w.savedTrees p, t.nesting ≤ Record.maxDepth
  /-- Four octets can count what is written of it. -/
  short : (ItemTree.encodeAll w.catalog (w.savedTrees p)).length < 4294967296

/-- The trees of a tile that returns can be counted. -/
theorem Returnable.counted {w : World} {p : Position} (h : w.Returnable p) :
    (w.savedTrees p).length < 4294967296 :=
  Nat.lt_of_le_of_lt (ItemTree.length_le_encodeAll _) h.short

/-- A tile of a house returns if its row can be counted and its types are known. -/
theorem Sound.returnable {w : World} (hw : w.Sound) {tile : UInt32 × Position}
    (hMem : tile ∈ w.houseTiles) (hLength : ∀ row ∈ w.tileRows, row.data.length < 4294967296)
    (hKnown : ∀ t ∈ w.treesOn tile.2,
      t.Every fun i _ => (w.catalog.usable? i.typeId).isSome ∧ i.Unspent w.catalog)
    (hNesting : ∀ t ∈ w.treesOn tile.2, t.nesting ≤ Record.maxDepth) : w.Returnable tile.2 := by
  have hShort : (ItemTree.encodeAll w.catalog (w.savedTrees tile.2)).length < 4294967296 := by
    -- The tree data is part of its row, which is short.
    cases hRow : w.tileRow? tile with
    | none =>
      rw [tileRow?_eq_none.1 hRow]
      exact Nat.zero_lt_succ _
    | some row =>
      have hOctets := length_encodeAll_le_tileOctets w.catalog tile.2 (w.savedTrees tile.2)
      have hAll := hLength row (by
        rw [tileRows_eq]
        exact List.mem_filterMap.2 ⟨tile, hMem, hRow⟩)
      obtain ⟨_, rfl⟩ := tileRow?_eq_some.1 hRow
      dsimp only at hAll
      omega
  constructor
  case returns => exact hw.returns_savedTrees tile.2 hShort hKnown
  case shallow => exact fun t ht => hNesting t (List.mem_of_mem_filter ht)
  case short => exact hShort

/-- Rows are still to come to tiles that are as the map gives them. -/
structure Awaiting (w : World) (tiles : List (UInt32 × Position)) (s : Restoring) : Prop where
  /-- The world is sound. -/
  sound : s.world.Sound
  /-- The catalog is the one that was saved under. -/
  catalog : s.world.catalog = w.catalog
  /-- No tile comes twice. -/
  distinct : (tiles.map (·.2)).Nodup
  /-- The tiles are there. -/
  there : ∀ tile ∈ tiles, (s.world.graph.tile? tile.2).isSome
  /-- Nothing on them moves. -/
  untouched : ∀ tile ∈ tiles, s.world.Untouched tile.2

/-- Rows have come to tiles, and to no others. -/
structure Arrived (w : World) (tiles : List (UInt32 × Position)) (s s' : Restoring) : Prop where
  /-- What moves has come back. -/
  back : ∀ tile ∈ tiles, ItemTree.RelatedAll (Item.CameBack w.catalog) (w.movedOn tile.2)
    (s'.world.movedOn tile.2)
  /-- The catalog is the one that was saved under. -/
  catalog : s'.world.catalog = w.catalog
  /-- Other tiles are as before. -/
  elsewhere : ∀ q, q ∉ tiles.map (·.2) → s'.world.treesOn q = s.world.treesOn q

section Tiles

variable {w : World} {tile : UInt32 × Position} {tiles : List (UInt32 × Position)}
  {s s₁ s' : Restoring}

/-- The tiles behind the first one are still awaited. -/
theorem Awaiting.tail (h : Awaiting w (tile :: tiles) s) : Awaiting w tiles s where
  sound := h.sound
  catalog := h.catalog
  distinct := (List.nodup_cons.1 h.distinct).2
  there := (List.forall_mem_cons.1 h.there).2
  untouched := (List.forall_mem_cons.1 h.untouched).2

/-- A tile without a row had nothing on it that moves, and has nothing now. -/
theorem Arrived.skip (h : Awaiting w (tile :: tiles) s) (hRow : w.tileRow? tile = none)
    (hRest : Arrived w tiles s s') : Arrived w (tile :: tiles) s s' where
  back := by
    refine List.forall_mem_cons.2 ⟨?_, hRest.back⟩
    -- No row means that nothing was saved, and what moves is always saved.
    have hBefore : w.movedOn tile.2 = [] := by
      rw [← filter_savedTrees, tileRow?_eq_none.1 hRow, List.filter_nil]
    -- The other rows have left the tile as the map gives it.
    have hNow : s'.world.movedOn tile.2 = [] := by
      rw [movedOn, hRest.elsewhere tile.2 (List.nodup_cons.1 h.distinct).1,
        isMoveable_eq (hRest.catalog.trans h.catalog.symm)]
      exact (h.untouched tile List.mem_cons_self).movedOn_eq_nil h.sound
    rw [hBefore, hNow]
    trivial
  catalog := hRest.catalog
  elsewhere q hq := by
    rw [List.map_cons, List.mem_cons, not_or] at hq
    exact hRest.elsewhere q hq.2

/-- When the row of a tile is back, the others are still to come: it has left their tiles alone. -/
theorem Awaiting.next (h : Awaiting w (tile :: tiles) s) {fixtures : List ItemId}
    {moved : List ItemTree} (hReturning : Returning w tile.2 fixtures moved s₁)
    (hConfined : Graph.Confined
      (s.world.graph.Around (· ∈ s.world.graph.contents (.tile tile.2))) (· = tile.2)
      s.world.graph s₁.world.graph) : Awaiting w tiles s₁ := by
  have hOther : ∀ tile' ∈ tiles, tile'.2 ≠ tile.2 := by
    intro tile' hMem hEq
    exact (List.nodup_cons.1 h.distinct).1 (List.mem_map.2 ⟨tile', hMem, hEq⟩)
  constructor
  case sound => exact hReturning.sound
  case catalog => exact hReturning.catalog
  case distinct => exact h.tail.distinct
  -- A row changes its own tile only.
  case there =>
    intro tile' hMem
    rw [hConfined.tiles tile'.2 (hOther tile' hMem)]
    exact h.tail.there tile' hMem
  case untouched =>
    intro tile' hMem
    exact (h.tail.untouched tile' hMem).of_sameTile
      (hReturning.catalog.trans h.catalog.symm) (h.sound.sameTile hConfined.toSpared (hOther tile' hMem))

/-- **A row comes to its tile**, and the others are still to come. -/
theorem Awaiting.row (h : Awaiting w (tile :: tiles) s) (hSettled : w.catalog.Settled)
    (hReturnable : w.Returnable tile.2) :
    ∃ s₁, Restoring.restoreRow s
          { house := tile.1, data := tileOctets w.catalog tile.2 (w.savedTrees tile.2) } = s₁
      ∧ Awaiting w tiles s₁
      ∧ ∀ s', Arrived w tiles s₁ s' → Arrived w (tile :: tiles) s s' := by
  obtain ⟨s₁, hRestore, hReturning, hConfined⟩ := restoreRow_returns hSettled tile.1 tile.2
    (w.savedTrees tile.2) hReturnable.returns hReturnable.shallow hReturnable.counted h.sound
    h.catalog (h.there tile List.mem_cons_self) (h.untouched tile List.mem_cons_self)
  have hNew := (List.nodup_cons.1 h.distinct).1
  refine ⟨s₁, hRestore, h.next hReturning hConfined, ?_⟩
  intro s' hRest
  constructor
  case back =>
    refine List.forall_mem_cons.2 ⟨?_, hRest.back⟩
    -- The rows after it leave this tile alone.
    have hBack := hReturning.related
    rw [filter_savedTrees] at hBack
    rw [movedOn, movedOn, hRest.elsewhere tile.2 hNew,
      isMoveable_eq (hRest.catalog.trans hReturning.catalog.symm)]
    exact hBack
  case catalog => exact hRest.catalog
  case elsewhere =>
    intro q hq
    rw [List.map_cons, List.mem_cons, not_or] at hq
    rw [hRest.elsewhere q hq.2,
      treesOn_of_sameTile h.sound hReturning.sound (h.sound.sameTile hConfined.toSpared hq.1)]

/-- **All rows come to their tiles.** -/
theorem Awaiting.rows (h : Awaiting w tiles s) (hSettled : w.catalog.Settled)
    (hReturnable : ∀ tile ∈ tiles, w.Returnable tile.2) :
    Arrived w tiles s ((tiles.filterMap w.tileRow?).foldl Restoring.restoreRow s) := by
  induction tiles generalizing s with
  | nil => exact ⟨fun tile hTile => absurd hTile List.not_mem_nil, h.catalog, fun q _ => rfl⟩
  | cons tile tiles ih =>
    obtain ⟨hFirst, hRest⟩ := List.forall_mem_cons.1 hReturnable
    cases hRow : w.tileRow? tile with
    | none =>
      rw [List.filterMap_cons_none hRow]
      exact (ih h.tail hRest).skip h hRow
    | some row =>
      -- The row is the one of this tile, and the tiles that follow are other ones.
      obtain ⟨_, rfl⟩ := tileRow?_eq_some.1 hRow
      obtain ⟨s₁, hRestore, hThen, hArrive⟩ := h.row hSettled hFirst
      rw [List.filterMap_cons_some hRow, List.foldl_cons, hRestore]
      exact hArrive _ (ih hThen hRest)

end Tiles

/-! ## §2. A restart. -/

/-- On the tiles of houses a blueprint has items only that do not move and that have time left. -/
theorem Drawn.untouched {c : Catalog} {w : World} (h : Drawn c w) {tile : UInt32 × Position}
    (hMem : tile ∈ w.houseTiles) : w.Untouched tile.2 := by
  obtain ⟨t, ht, hHouse⟩ := Option.map_eq_some_iff.1 (h.houseOf?_of_mem hMem)
  constructor
  · intro id hid i hi
    rw [h.catalog]
    rw [w.graph.contents_tile ht] at hid
    exact h.fixtures tile.2 t ht (by rw [hHouse]; rfl) id hid i hi
  · intro id _ j i _ hi
    rw [h.catalog]
    exact (h.items j i hi).ticking

/-- After a restart the rows that were saved come to the tiles of the same blueprint, which has all
tiles and on those of houses nothing that moves yet. -/
theorem restart {c : Catalog} {b : Blueprint} {w w' : World} {a a' : Archive} {report : SaveReport}
    (hBuilt : (ofBlueprint c b).1 = .ok w) (hLimited : a.Limited)
    (hSaved : w'.saveItems a = .ok (report, a')) (hCatalog : w'.catalog = w.catalog)
    (hRead : a'.declines .tileRows = none) :
    ∃ loaded, w.loadItems a' = .ok loaded
      ∧ loaded.world = (w.restoreRows w'.tileRows).world
      ∧ loaded.report = (w.restoreRows w'.tileRows).report
      ∧ (∀ row ∈ w'.tileRows, row.data.length < 4294967296)
      ∧ Awaiting w' w.houseTiles { world := w } := by
  have hDrawn := drawn_ofBlueprint hBuilt
  obtain ⟨hTaken, _, _⟩ := tileRows_of_saveItems hSaved
  obtain ⟨loaded, hLoaded, hWorld, hReport⟩ := loadItems_of_saveItems w hSaved hRead
  refine ⟨loaded, hLoaded, hWorld, hReport, ?_, ?_⟩
  · intro row hRow
    -- Rows that the archive has taken are short enough to be counted.
    have hShort := hLimited _ hTaken row hRow
    omega
  · constructor
    case sound => exact hDrawn.sound
    case catalog => exact hCatalog.symm
    case distinct => exact hDrawn.nodup_houseTiles
    case there =>
      intro tile hMem
      obtain ⟨t, ht, _⟩ := Option.map_eq_some_iff.1 (hDrawn.houseOf?_of_mem hMem)
      show (w.graph.tile? tile.2).isSome = true
      rw [ht]
      rfl
    case untouched => exact fun tile hMem => hDrawn.untouched hMem

/-- **What moves on the tiles of houses is there again after a restart**, tree by tree and in the
same order, whatever was done to the items before they were saved.  No row is rejected, and none is
skipped. -/
theorem moved_items_come_back {c : Catalog} {b : Blueprint} {w : World} {a a' : Archive}
    {report : SaveReport} (actions : List Graph.Action) (hSettled : c.Settled)
    (hBuilt : (ofBlueprint c b).1 = .ok w)
    (hKnown : ∀ tile ∈ w.houseTiles, ∀ t ∈ (w.afterActions actions).treesOn tile.2,
      t.Every fun i _ => (c.usable? i.typeId).isSome ∧ i.Unspent c)
    (hNesting : ∀ tile ∈ w.houseTiles, ∀ t ∈ (w.afterActions actions).treesOn tile.2,
      t.nesting ≤ Record.maxDepth)
    (hLimited : a.Limited) (hSaved : (w.afterActions actions).saveItems a = .ok (report, a'))
    (hRead : a'.declines .tileRows = none) :
    ∃ loaded, w.loadItems a' = .ok loaded
      ∧ loaded.report.failed = 0 ∧ loaded.report.skipped = 0
      ∧ ∀ tile ∈ w.houseTiles, ItemTree.RelatedAll (Item.CameBack c)
        ((w.afterActions actions).movedOn tile.2) (loaded.world.movedOn tile.2) := by
  have hDrawn := drawn_ofBlueprint hBuilt
  obtain rfl := hDrawn.catalog
  have hSound := hDrawn.sound.afterActions actions
  obtain ⟨loaded, hLoaded, hWorld, hReport, hLength, hAwaiting⟩ :=
    restart hBuilt hLimited hSaved rfl hRead
  obtain ⟨_, hSkipped, hFailed⟩ :=
    restoreRows_tileRows hSound hDrawn.sound rfl hAwaiting.there hLength
  have hArrived := hAwaiting.rows hSettled fun tile hMem =>
    hSound.returnable hMem hLength (hKnown tile hMem) (hNesting tile hMem)
  refine ⟨loaded, hLoaded, ?_, ?_, ?_⟩
  · rw [hReport, hFailed, sum_failures, List.countP_eq_zero]
    intro tile hMem
    -- A row would fail only for a tree that is too deep.
    have hShallow : ItemTree.nestings ((w.afterActions actions).savedTrees tile.2)
        ≤ Record.maxDepth :=
      ItemTree.nestings_le_iff.2 fun t ht => hNesting tile hMem t (List.mem_of_mem_filter ht)
    unfold tooDeep
    simpa using hShallow
  · rw [hReport, hSkipped]
  · rw [hWorld, restoreRows, tileRows_eq]
    exact hArrived.back

/-! ## §3. Bags in bags. -/

/-- Nothing in the catalog of bags decays. -/
theorem bagCatalog_settled : bagCatalog.Settled := by
  intro id t ht _
  -- There is one type in the catalog.
  have hBag : t = { id := 1, group := .container, moveable := true } := by
    have hGet : bagCatalog.get? id
        = if compare 1 id = .eq then some { id := 1, group := .container, moveable := true }
          else none :=
      Std.TreeMap.getElem?_insert
    rw [hGet] at ht
    split_ifs at ht
    exact (Option.some_inj.1 ht).symm
  rw [hBag]
  exact ⟨rfl, rfl⟩

/-- A house of one tile with nothing on it. -/
def emptyHouse : Blueprint where
  houses := [{ id := 1, name := "", entry := .zero }]
  tiles := [{ position := .zero, house := some 1, items := [] }]

/-- The world of that house. -/
def houseWorld : World :=
  (ofBlueprint bagCatalog emptyHouse).1.toOption.getD {}

/-- Two bags are made; one is put into the other, and that one on the tile. -/
def bagActions : List Graph.Action :=
  [.create 1 0, .create 1 0, .add (.item 0) 1, .add (.tile .zero) 0]

/-- That world once it is saved. -/
def savedBags : SaveReport × Archive :=
  ((houseWorld.afterActions bagActions).saveItems limitedArchive).toOption.getD ({}, {})

/-- The bags come back. -/
theorem moved_items_come_back_bags :
    (ofBlueprint bagCatalog emptyHouse).1 = .ok houseWorld
      ∧ (houseWorld.afterActions bagActions).saveItems limitedArchive = .ok savedBags
      ∧ ((houseWorld.afterActions bagActions).movedOn .zero).map ItemTree.size = [2]
      ∧ ∃ loaded, houseWorld.loadItems savedBags.2 = .ok loaded ∧ loaded.report.failed = 0
        ∧ ItemTree.RelatedAll (Item.CameBack bagCatalog)
          ((houseWorld.afterActions bagActions).movedOn .zero) (loaded.world.movedOn .zero) := by
  have hBuilds : (ofBlueprint bagCatalog emptyHouse).1.toOption.isSome = true := by
    decide +kernel
  have hBuilt : (ofBlueprint bagCatalog emptyHouse).1 = .ok houseWorld := by
    unfold houseWorld
    exact eq_ok_of_isSome (ofBlueprint bagCatalog emptyHouse).1 ({} : World) hBuilds
  have hSaves : ((houseWorld.afterActions bagActions).saveItems
      limitedArchive).toOption.isSome = true := by
    decide +kernel
  have hSaved : (houseWorld.afterActions bagActions).saveItems limitedArchive = .ok savedBags := by
    unfold savedBags
    exact eq_ok_of_isSome ((houseWorld.afterActions bagActions).saveItems limitedArchive) ({}, {})
      hSaves
  have hParts : (houseWorld.afterActions bagActions).saveItems limitedArchive
      = .ok (savedBags.1, savedBags.2) := by
    rw [hSaved, Prod.mk.eta]
  obtain ⟨_, hSame, _⟩ := tileRows_of_saveItems hParts
  -- What the theorem asks for is computed: known types, shallow trees, short rows.
  have hKnown : ∀ tile ∈ houseWorld.houseTiles,
      ∀ t ∈ (houseWorld.afterActions bagActions).treesOn tile.2,
        t.Every fun i _ => (bagCatalog.usable? i.typeId).isSome ∧ i.Unspent bagCatalog := by
    decide +kernel
  have hNesting : ∀ tile ∈ houseWorld.houseTiles,
      ∀ t ∈ (houseWorld.afterActions bagActions).treesOn tile.2,
        t.nesting ≤ Record.maxDepth := by
    decide +kernel
  have hTile : ((1 : UInt32), Position.zero) ∈ houseWorld.houseTiles := by
    decide +kernel
  obtain ⟨loaded, hLoaded, hFailed, _, hBack⟩ := moved_items_come_back bagActions
    bagCatalog_settled hBuilt hKnown hNesting limitedArchive_limited hParts (by rw [hSame]; rfl)
  exact ⟨hBuilt, hSaved, by decide +kernel, loaded, hLoaded, hFailed, hBack _ hTile⟩

end World

end Homestead
