/-
  Homestead.Proofs.World.Rows
  ───────────────────────────
  **WHICH ROWS ARE REJECTED.**

  The row of a tile is read to its end when none of the trees in it has
  containers lying too deep in one another, whatever the world is like that
  it is read into.  Otherwise reading stops at the first tree that has, and
  the row counts as failed.  Nothing else makes a saved row fail.

  Main results:
    * `placeAll_encodeAll` — the records of a row;
    * `restoreRow_tileOctets` — a row;
    * `restoreRows_tileRows` — all rows of a world.
-/
import Mathlib.Algebra.GroupWithZero.Nat
import Homestead.Proofs.Record.Reading
import Homestead.Proofs.World.Place
import Homestead.World.Save

open Homestead.Stream

namespace Homestead

/-! ## §1. Trees that can be read back. -/

mutual

/-- The record of a tree that can be read back fits. -/
theorem ItemTree.record_fits {c : Catalog} : ∀ t : ItemTree, t.Every (Item.Readable c) →
    (t.record c).Fits c
  | .node i contents, h => by
    rw [ItemTree.record]
    by_cases hHolds : i.isContainer
    · rw [if_pos hHolds]
      exact ⟨rfl, h.1.holds hHolds, ItemTree.records_fit contents h.2⟩
    · rw [if_neg hHolds]
      exact rfl

/-- The records of readable trees fit the catalog. -/
theorem ItemTree.records_fit {c : Catalog} : ∀ ts : List ItemTree,
    ItemTree.EveryOf (Item.Readable c) ts → Record.FitAll c (ItemTree.records c ts)
  | [], _ => trivial
  | t :: ts, h => ⟨t.record_fits h.1, ItemTree.records_fit ts h.2⟩

end

namespace ItemTree

variable {c : Catalog}

/-- Every tree takes an octet at least. -/
theorem length_le_encodeAll (ts : List ItemTree) : ts.length ≤ (encodeAll c ts).length := by
  induction ts with
  | nil => exact Nat.le_refl 0
  | cons t ts ih =>
    have hHead : 1 ≤ (t.encode c).length := by
      cases t with
      | node i contents =>
        rw [encode, List.length_append]
        -- The end mark alone is one.
        exact Nat.le_add_left 1 _
    rw [encodeAll, List.length_append, List.length_cons]
    omega

mutual

/-- **A tree with contents in containers only, and all items in the variants of their types, can be
read back** if its octets are not too many to count. -/
theorem readable_of_length : ∀ t : ItemTree, t.Every Hollow → (t.Every fun i _ => i.Typed c) →
    (t.encode c).length < 4294967296 → t.Every (Item.Readable c)
  | node i contents, hHollow, hTyped, hLength => by
    by_cases hHolds : i.isContainer
    · rw [Record.length_encode_container c contents hHolds] at hLength
      -- Every item takes an octet at least, so there are no more contents than octets.
      have hCount := length_le_encodeAll (c := c) contents
      refine ⟨⟨fun h => absurd hHolds h, ?_, fun _ => by omega⟩,
        readableAll_of_length contents hHollow.2 hTyped.2 (by omega)⟩
      intro _
      cases hType : c.usable? i.typeId with
      | none => rfl
      | some t =>
        have hKind := hTyped.1 t (Catalog.get?_of_usable? hType)
        show t.variant.isContainer = true
        rw [← Variant.isContainer_eq_of_sameKind hKind]
        exact hHolds
    · have hNil : contents = [] := by
        by_contra hNonempty
        exact hHolds (hHollow.1 hNonempty)
      subst hNil
      exact ⟨⟨fun _ => rfl, fun h => absurd h hHolds, fun h => absurd h hHolds⟩, trivial⟩

/-- Trees whose octets can be counted are readable: no item of them has more contents than
octets. -/
theorem readableAll_of_length : ∀ ts : List ItemTree, EveryOf Hollow ts →
    EveryOf (fun i _ => i.Typed c) ts → (encodeAll c ts).length < 4294967296 →
    EveryOf (Item.Readable c) ts
  | [], _, _, _ => trivial
  | t :: ts, hHollow, hTyped, hLength => by
    rw [encodeAll, List.length_append] at hLength
    exact ⟨readable_of_length t hHollow.1 hTyped.1 (by omega),
      readableAll_of_length ts hHollow.2 hTyped.2 (by omega)⟩

end

end ItemTree

namespace World

/-! ## §2. The trees on a tile. -/

/-- The trees of the items on a tile, in order. -/
def treesOn (w : World) (p : Position) : List ItemTree :=
  (w.graph.contents (.tile p)).filterMap w.graph.tree?

/-- What is saved of a tile are the trees that are stored. -/
theorem savedTrees_eq (w : World) (p : Position) :
    w.savedTrees p = (w.treesOn p).filter (·.isSaved w.catalog) := rfl

/-- The items on a tile show its trees. -/
theorem Sound.shows_treesOn {w : World} (hw : w.Sound) (p : Position) :
    w.graph.ShowsAll (w.graph.contents (.tile p)) (w.treesOn p) := by
  refine hw.consistent.filterMap_tree? ?_
  intro id hid
  obtain ⟨n, hn, _⟩ := hw.consistent.linked _ _ hid
  rw [hn]
  rfl

/-- The saved trees of a tile can be read back if their octets are not too many to count. -/
theorem Sound.readable_savedTrees {w : World} (hw : w.Sound) (p : Position)
    (hLength : (ItemTree.encodeAll w.catalog (w.savedTrees p)).length < 4294967296) :
    ItemTree.EveryOf (Item.Readable w.catalog) (w.savedTrees p) := by
  have hShows := hw.shows_treesOn p
  have hHollow := hw.consistent.hollow_of_showsAll _ _ hShows
  have hTyped := Graph.ShowsAll.everyOf_item hw.typed hShows
  -- What is saved is part of what lies on the tile, and has what all of that has.
  refine ItemTree.readableAll_of_length (w.savedTrees p) ?_ ?_ hLength
  · rw [ItemTree.everyOf_iff] at hHollow ⊢
    intro t ht
    exact hHollow t (List.mem_of_mem_filter ht)
  · rw [ItemTree.everyOf_iff] at hTyped ⊢
    intro t ht
    exact hTyped t (List.mem_of_mem_filter ht)

namespace Restoring

/-! ## §3. Rows. -/

/-- One more row failed if there is a tree that is too deep. -/
def failures (ts : List ItemTree) : Nat :=
  if ItemTree.nestings ts ≤ Record.maxDepth then 0 else 1

/-- The world is kept, and so many more rows are counted as failed, none as skipped. -/
structure Restored (s s' : Restoring) (failed : Nat) : Prop where
  /-- The world is kept. -/
  keeps : Keeps s.world s'.world
  /-- Rows failed. -/
  failed : s'.report.failed = s.report.failed + failed
  /-- No row was skipped. -/
  skipped : s'.report.skipped = s.report.skipped

/-- Rows are restored one part after the other. -/
theorem Restored.trans {s s' s'' : Restoring} {m n : Nat} (h : Restored s s' m)
    (h' : Restored s' s'' n) : Restored s s'' (m + n) where
  keeps := h.keeps.trans h'.keeps
  failed := by rw [h'.failed, h.failed, Nat.add_assoc]
  skipped := h'.skipped.trans h.skipped

/-- **The records of trees are all brought back if no tree is too deep.** -/
theorem placeAll_encodeAll (house : UInt32) (p : Position) (total : Nat) {c : Catalog}
    (ts : List ItemTree) (hReadable : ItemTree.EveryOf (Item.Readable c) ts)
    (rest : List UInt8) :
    ∀ (s : Restoring) (position : Nat), s.world.Sound → s.world.catalog = c →
      (s.world.graph.tile? p).isSome →
      Restored s (placeAll house p total ts.length ⟨position, ItemTree.encodeAll c ts ++ rest⟩ s)
        (failures ts) := by
  induction ts with
  | nil =>
    intro s position _ _ _
    exact ⟨Keeps.refl _, rfl, rfl⟩
  | cons t ts ih =>
    intro s position hs hc hTile
    rw [ItemTree.encodeAll, List.append_assoc, List.length_cons, placeAll, hc]
    by_cases hNesting : t.nesting ≤ Record.maxDepth
    · -- The first tree is brought back, and the others after it.
      have hDecode := Record.decodeWithin_encode c t Record.maxDepth hReadable.1 hNesting
        (ItemTree.encodeAll c ts ++ rest) position
      have hFits := t.record_fits hReadable.1
      obtain ⟨s', hPlace, hPlaced⟩ := place_of_fits hs hTile (by rw [hc]; exact hFits)
      have hTail := ih hReadable.2 s' (position + (t.encode c).length) (hPlaced.keeps.sound hs)
        (hPlaced.keeps.catalog.trans hc) (by rw [hPlaced.keeps.tiles]; exact hTile)
      have hFailures : failures (t :: ts) = failures ts := by
        unfold failures
        simp only [ItemTree.nestings, Nat.max_le, hNesting, true_and]
      rw [Record.decode, hDecode, hFailures]
      dsimp only
      rw [hPlace]
      have hHead : Restored s s' 0 := ⟨hPlaced.keeps, hPlaced.failed, hPlaced.skipped⟩
      have hBoth := hHead.trans hTail
      rwa [Nat.zero_add] at hBoth
    · -- The first tree is rejected, and the others are not read any more.
      obtain ⟨failure, hFails⟩ := Record.decodeWithin_encode_deep c t Record.maxDepth hReadable.1
        (Nat.not_le.1 hNesting) (ItemTree.encodeAll c ts ++ rest) position
      have hFailures : failures (t :: ts) = 1 := by
        unfold failures
        rw [if_neg]
        rw [ItemTree.nestings, Nat.max_le]
        exact fun h => hNesting h.1
      rw [Record.decode, hFails, hFailures]
      exact ⟨Keeps.refl _, rfl, rfl⟩

/-- The head of a row reads back as the position and the number of its records, as far as four
octets can count them. -/
theorem readHead_tileOctets (c : Catalog) (p : Position) (ts : List ItemTree) :
    ∃ position, readHead (Reader.ofOctets (tileOctets c p ts))
      = some ((p, UInt32.ofNat ts.length), ⟨position, ItemTree.encodeAll c ts⟩) := by
  have hOctets : tileOctets c p ts = (Datum.u16 p.x).octets ++ ((Datum.u16 p.y).octets
      ++ ((Datum.u8 p.z).octets ++ (littleEndian 4 ts.length ++ ItemTree.encodeAll c ts))) := by
    rw [tileOctets]
    simp only [Datum.octets, List.append_assoc]
  -- The two coordinates, the floor and the number of records stand in front.
  refine ⟨0 + 2 + 2 + 1 + 4, ?_⟩
  unfold readHead Reader.ofOctets
  rw [hOctets]
  simp only [Reader.u16_octets, Reader.u8_octets, Reader.u32_littleEndian, Option.bind_eq_bind,
    Option.bind_some]
  rfl

/-- The state in which a row begins: the row is counted, and no record has gone to any item. -/
def begun (s : Restoring) : Restoring :=
  { s with report := { s.report with rows := s.report.rows + 1 }, claimed := [] }

/-- The records of a row for a tile that is there are brought back. -/
theorem restoreRow_of_head {s : Restoring} {p : Position} {row : TileRow} {count : UInt32} {r : Reader}
    (hHead : readHead (Reader.ofOctets row.data) = some ((p, count), r))
    (hTile : (s.world.graph.tile? p).isSome) :
    restoreRow s row = placeAll row.house p count.toNat count.toNat r s.begun := by
  obtain ⟨t, ht⟩ := Option.isSome_iff_exists.1 hTile
  unfold restoreRow
  dsimp only
  rw [hHead]
  dsimp only
  rw [ht]
  rfl

/-- A row that has no room for its head does nothing, and fails. -/
theorem restoreRow_of_short (s : Restoring) {row : TileRow}
    (hHead : readHead (Reader.ofOctets row.data) = none) :
    (restoreRow s row).world = s.world ∧ (restoreRow s row).report
      = { s.report with rows := s.report.rows + 1, failed := s.report.failed + 1 } := by
  unfold restoreRow
  dsimp only
  rw [hHead]
  exact ⟨rfl, rfl⟩

/-- A row for a tile that is not there does nothing, and is skipped. -/
theorem restoreRow_of_missing {s : Restoring} {p : Position} {row : TileRow} {count : UInt32}
    {r : Reader} (hHead : readHead (Reader.ofOctets row.data) = some ((p, count), r))
    (hTile : s.world.graph.tile? p = none) :
    (restoreRow s row).world = s.world ∧ (restoreRow s row).report
      = { s.report with rows := s.report.rows + 1, skipped := s.report.skipped + 1 } := by
  unfold restoreRow
  dsimp only
  rw [hHead]
  dsimp only
  rw [hTile]
  exact ⟨rfl, rfl⟩

/-- The row of saved trees brings back their records. -/
theorem restoreRow_eq_placeAll (c : Catalog) (house : UInt32) (p : Position) (ts : List ItemTree)
    (hCount : ts.length < 4294967296) {s : Restoring} (hTile : (s.world.graph.tile? p).isSome) :
    ∃ position, restoreRow s { house, data := tileOctets c p ts }
      = placeAll house p ts.length ts.length ⟨position, ItemTree.encodeAll c ts⟩ s.begun := by
  have hNat : (UInt32.ofNat ts.length).toNat = ts.length := by
    rw [UInt32.toNat_ofNat', Nat.mod_eq_of_lt hCount]
  obtain ⟨position, hHead⟩ := readHead_tileOctets c p ts
  refine ⟨position, ?_⟩
  rw [restoreRow_of_head hHead hTile, hNat]

/-- **A row of saved trees fails just if one of them is too deep.** -/
theorem restoreRow_tileOctets {c : Catalog} (house : UInt32) (p : Position) (ts : List ItemTree)
    (hReadable : ItemTree.EveryOf (Item.Readable c) ts) (hCount : ts.length < 4294967296)
    {s : Restoring} (hs : s.world.Sound) (hc : s.world.catalog = c)
    (hTile : (s.world.graph.tile? p).isSome) :
    Restored s (restoreRow s { house, data := tileOctets c p ts }) (failures ts) := by
  obtain ⟨position, hRow⟩ := restoreRow_eq_placeAll c house p ts hCount hTile
  have hAll := placeAll_encodeAll house p ts.length ts hReadable [] s.begun position hs hc hTile
  rw [List.append_nil] at hAll
  rw [hRow]
  exact ⟨hAll.keeps, hAll.failed, hAll.skipped⟩

end Restoring

/-! ## §4. All rows. -/

/-- The tiles of the houses, each with the number of its house, in the order in which they are
saved. -/
def houseTiles (w : World) : List (UInt32 × Position) :=
  w.houses.values.flatMap fun h => h.tiles.map fun p => (h.id, p)

/-- The row of a tile, unless there is nothing to save. -/
def tileRow? (w : World) (tile : UInt32 × Position) : Option TileRow :=
  (w.saveTile? tile.1 tile.2).map fun t => { house := t.house, data := t.octets }

/-- There is a row for each tile of a house that has something to save. -/
theorem tileRows_eq (w : World) : w.tileRows = w.houseTiles.filterMap w.tileRow? := by
  have hTiles : w.savedTiles = w.houseTiles.filterMap fun tile => w.saveTile? tile.1 tile.2 := by
    unfold savedTiles houseTiles
    rw [List.filterMap_flatMap]
    congr 1
    funext h
    rw [List.filterMap_map]
    rfl
  rw [tileRows, hTiles, List.map_filterMap]
  rfl

/-- The row of a tile has its house and its octets. -/
theorem tileRow?_eq_some {w : World} {tile : UInt32 × Position} {row : TileRow} :
    w.tileRow? tile = some row ↔ w.savedTrees tile.2 ≠ []
      ∧ row = { house := tile.1, data := tileOctets w.catalog tile.2 (w.savedTrees tile.2) } := by
  unfold tileRow? saveTile?
  cases hTrees : w.savedTrees tile.2 with
  | nil => simp
  | cons t ts =>
    dsimp only
    rw [List.isEmpty_cons, if_neg (by simp), Option.map_some, Option.some_inj]
    exact ⟨fun h => ⟨by simp, h.symm⟩, fun h => h.2.symm⟩

/-- A tile without a row has nothing to save. -/
theorem tileRow?_eq_none {w : World} {tile : UInt32 × Position} :
    w.tileRow? tile = none ↔ w.savedTrees tile.2 = [] := by
  unfold tileRow? saveTile?
  cases w.savedTrees tile.2 <;> simp

/-- The octets of the trees of a tile are part of those of its row. -/
theorem length_encodeAll_le_tileOctets (c : Catalog) (p : Position) (ts : List ItemTree) :
    (ItemTree.encodeAll c ts).length ≤ (tileOctets c p ts).length := by
  rw [tileOctets, List.length_append]
  exact Nat.le_add_left _ _

/-- The rows of some tiles put back what those tiles have lying on them, into any sound state with
the same catalog and these tiles. -/
theorem restored_rows {w : World} (hw : w.Sound) (tiles : List (UInt32 × Position)) {s : Restoring}
    (hs : s.world.Sound) (hc : s.world.catalog = w.catalog)
    (hTile : ∀ tile ∈ tiles, (s.world.graph.tile? tile.2).isSome)
    (hShort : ∀ row ∈ tiles.filterMap w.tileRow?, row.data.length < 4294967296) :
    Restoring.Restored s ((tiles.filterMap w.tileRow?).foldl Restoring.restoreRow s)
      (tiles.map fun tile => Restoring.failures (w.savedTrees tile.2)).sum := by
  induction tiles generalizing s with
  | nil => exact ⟨Keeps.refl _, rfl, rfl⟩
  | cons tile tiles ih =>
    obtain ⟨hFirst, hOthers⟩ := List.forall_mem_cons.1 hTile
    rw [List.map_cons, List.sum_cons]
    cases hRow : w.tileRow? tile with
    | none =>
      have hNone : Restoring.failures (w.savedTrees tile.2) = 0 := by
        rw [tileRow?_eq_none.1 hRow]
        rfl
      rw [List.filterMap_cons_none hRow] at hShort ⊢
      rw [hNone, Nat.zero_add]
      exact ih hs hc hOthers hShort
    | some row =>
      rw [List.filterMap_cons_some hRow] at hShort ⊢
      obtain ⟨hFits, hRest⟩ := List.forall_mem_cons.1 hShort
      obtain ⟨_, rfl⟩ := tileRow?_eq_some.1 hRow
      -- The row counts its octets, and a tree takes an octet at least: so its trees can be counted.
      have hOctets := length_encodeAll_le_tileOctets w.catalog tile.2 (w.savedTrees tile.2)
      have hCount := ItemTree.length_le_encodeAll (c := w.catalog) (w.savedTrees tile.2)
      dsimp only at hFits
      have hReadable := hw.readable_savedTrees tile.2 (by omega)
      have hHere := Restoring.restoreRow_tileOctets tile.1 tile.2 (w.savedTrees tile.2) hReadable
        (by omega) hs hc hFirst
      refine hHere.trans (ih (hHere.keeps.sound hs) (hHere.keeps.catalog.trans hc) ?_ hRest)
      intro tile' hMem
      rw [hHere.keeps.tiles]
      exact hOthers tile' hMem

/-- **Of the rows of a world just those fail that have a tree in them that is too deep**, whatever
sound world with the same tiles they are read into. -/
theorem restoreRows_tileRows {w w₀ : World} (hw : w.Sound) (hw₀ : w₀.Sound)
    (hCatalog : w₀.catalog = w.catalog)
    (hTiles : ∀ tile ∈ w.houseTiles, (w₀.graph.tile? tile.2).isSome)
    (hLength : ∀ row ∈ w.tileRows, row.data.length < 4294967296) :
    (w₀.restoreRows w.tileRows).world.Sound
      ∧ (w₀.restoreRows w.tileRows).report.skipped = 0
      ∧ (w₀.restoreRows w.tileRows).report.failed
        = (w.houseTiles.map fun tile => Restoring.failures (w.savedTrees tile.2)).sum := by
  rw [tileRows_eq] at hLength ⊢
  have hRows := restored_rows (s := { world := w₀ }) hw w.houseTiles hw₀ hCatalog hTiles hLength
  exact ⟨hRows.keeps.sound hw₀, hRows.skipped, hRows.failed.trans (Nat.zero_add _)⟩

end World

end Homestead
