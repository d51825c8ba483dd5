/-
  Homestead.Proofs.World.Accounts
  ───────────────────────────────
  **THE REPORT OF A LOAD ADDS UP.**

  Whatever becomes of a record, all its items go into the report once.  The
  items of a new tree are made, those of a record of no known type are let
  go; a record that goes to an item of the map is matched, and its contents
  are made or let go; a record that no item of the map is left for is let
  go as it would have been made.  A row is skipped if its tile is not
  there, and fails if its head is short or a record in it cannot be read.

  Main results:
    * `accounted_place` — one record;
    * `adds_restoreRow` — one row;
    * `accounts_loadItems` — all rows of an archive.
-/
import Homestead.Proofs.Record.Pruned
import Homestead.Proofs.World.RowsApart

open Homestead.Stream

namespace Homestead

/-- The items that a report speaks of: those made, those let go, and those of the map that records
have gone to. -/
def LoadReport.accounted (report : LoadReport) : Nat :=
  report.items.created + report.items.discarded + report.matched

namespace Record

variable {c : Catalog} {r : Record}

/-! ## §1. Records. -/

/-- Building a record counts each of its parts once, as created or as discarded. -/
theorem counted_build {o : Option ItemTree} {tally : Tally} (h : r.build c = (.ok o, tally)) :
    tally.created + tally.discarded = r.total := by
  have hPruning := pruning_build c r
  rw [h] at hPruning
  exact hPruning.counted o.toList rfl

/-- Totals of two lists are added up. -/
theorem totals_append (rs rs' : List Record) : totals (rs ++ rs') = totals rs + totals rs' := by
  induction rs with
  | nil => exact (Nat.zero_add _).symm
  | cons r rs ih => rw [List.cons_append, totals, totals, ih, Nat.add_assoc]

/-- Every item that goes into a container is counted. -/
theorem counted_fillAll {container : ItemId} {rs : List Record} {g g' : Graph}
    {tally tally' : Tally} (h : fillAll c container rs g tally = (.ok (), tally', g')) :
    tally'.created + tally'.discarded = tally.created + tally.discarded + totals rs := by
  induction rs generalizing g tally with
  | nil =>
    cases h
    rfl
  | cons r rs ih =>
    rw [Graph.fillAll_cons] at h
    rw [totals]
    cases hBuilt : r.build c with
    | mk result more =>
      rw [hBuilt] at h
      cases result with
      | error e => cases h
      | ok o =>
        have hHead := counted_build hBuilt
        -- Whether there is an item or not, the rest is counted after it.
        have hRest : ∀ {g₁ : Graph}, fillAll c container rs g₁ (tally + more)
            = (.ok (), tally', g') → tally'.created + tally'.discarded
              = tally.created + tally.discarded + (r.total + totals rs) := by
          intro g₁ hFill
          have hTail := ih hFill
          rw [created_add, discarded_add] at hTail
          omega
        cases o with
        | none => exact hRest h
        | some t =>
          dsimp only at h
          cases hAdd : (g.create t).2.add (.item container) (g.create t).1 with
          | error e =>
            rw [hAdd] at h
            cases h
          | ok g₁ =>
            rw [hAdd] at h
            exact hRest h

end Record

namespace World

namespace Restoring

variable {s s' : Restoring} {p : Position} {r : Record} {id : ItemId}

/-- A report has grown by so many rows, so many of them skipped and failed, and by so many items. -/
structure Adds (a b : LoadReport) (rows skipped failed items : Nat) : Prop where
  /-- Rows. -/
  rows : b.rows = a.rows + rows
  /-- Skipped ones. -/
  skipped : b.skipped = a.skipped + skipped
  /-- Failed ones. -/
  failed : b.failed = a.failed + failed
  /-- Items. -/
  items : b.accounted = a.accounted + items

/-- What two steps add is added up. -/
theorem Adds.trans {x y z : LoadReport} {rows rows' skipped skipped' failed failed' items items' : Nat}
    (h : Adds x y rows skipped failed items) (h' : Adds y z rows' skipped' failed' items') :
    Adds x z (rows + rows') (skipped + skipped') (failed + failed') (items + items') where
  rows := by rw [h'.rows, h.rows, Nat.add_assoc]
  skipped := by rw [h'.skipped, h.skipped, Nat.add_assoc]
  failed := by rw [h'.failed, h.failed, Nat.add_assoc]
  items := by rw [h'.items, h.items, Nat.add_assoc]

/-- A record that is counted adds its parts to the items of the report. -/
theorem adds_count (s : Restoring) (tally : Tally) :
    Adds s.report (s.count tally).report 0 0 0 (tally.created + tally.discarded) where
  rows := rfl
  skipped := rfl
  failed := rfl
  items := by
    show s.report.items.created + tally.created + (s.report.items.discarded + tally.discarded)
      + s.report.matched = _
    unfold LoadReport.accounted
    omega

/-- What moves is made. -/
theorem adds_placeMoveable (h : placeMoveable p r s = (.ok (), s')) :
    Adds s.report s'.report 0 0 0 r.total := by
  unfold placeMoveable at h
  cases hBuilt : r.build s.world.catalog with
  | mk result tally =>
    rw [hBuilt] at h
    cases result with
    | error e => cases h
    | ok o =>
      -- The record is counted when it is built; putting it on the tile counts nothing.
      have hAdds := adds_count s tally
      rw [Record.counted_build hBuilt] at hAdds
      cases o with
      | none =>
        cases h
        exact hAdds
      | some t =>
        dsimp only at h
        split at h
        next => cases h
        next =>
          cases h
          exact hAdds

/-- What goes to an item of the map is matched, and its contents are made or let go. -/
theorem adds_bindFixture (h : bindFixture id r s = (.ok (), s')) :
    Adds s.report s'.report 0 0 0 r.total := by
  obtain ⟨s₀, hReplace, rfl⟩ := bindFixture_eq_ok h
  obtain ⟨typeId, known, us, children⟩ := r
  -- The contents are counted while they are put back, and the record itself when it is matched.
  have hContents : Adds s.report s₀.report 0 0 0 (children.elim 0 Record.totals) := by
    rcases replaceContents_eq_ok hReplace with
      ⟨hNone, rfl⟩ | ⟨rs, g, tally, g₁, hrs, _, hFill, rfl⟩
    · obtain rfl : children = none := hNone
      exact ⟨rfl, rfl, rfl, rfl⟩
    · obtain rfl : children = some rs := hrs
      unfold Record.fill at hFill
      dsimp only [Record.children] at hFill
      split at hFill
      next => cases hFill
      next =>
        have hCounted : tally.created + tally.discarded = 0 + Record.totals rs :=
          Record.counted_fillAll hFill
        have hAdds := adds_count s tally
        rw [hCounted, Nat.zero_add] at hAdds
        exact hAdds
  have hMatched : Adds s₀.report { s₀.report with matched := s₀.report.matched + 1 } 0 0 0 1 :=
    ⟨rfl, rfl, rfl, rfl⟩
  have hTotal : children.elim 0 Record.totals + 1 = Record.total (.mk typeId known us children) := by
    cases children with
    | none => rfl
    | some rs =>
      rw [Record.total, Nat.add_comm]
      rfl
  rw [← hTotal]
  exact hContents.trans hMatched

/-- What no item of the map is left for is let go. -/
theorem adds_throwAway (h : throwAway r s = (.ok (), s')) :
    Adds s.report s'.report 0 0 0 r.total := by
  have hReport := report_throwAway r s
  rw [h] at hReport
  unfold throwAway at h
  dsimp only at hReport h
  rw [hReport, lost]
  -- It is built to be counted, and all that was made or discarded is let go.
  cases hBuilt : r.build s.world.catalog with
  | mk result tally =>
    rw [hBuilt] at h
    cases result with
    | error e => cases h
    | ok o =>
      rw [← Record.counted_build hBuilt]
      have hAdds := adds_count s (.letGo (tally.created + tally.discarded))
      rw [show (Tally.letGo (tally.created + tally.discarded)).created = 0 from rfl, Nat.zero_add]
        at hAdds
      exact ⟨hAdds.rows, hAdds.skipped, hAdds.failed, hAdds.items⟩

/-- **All items of a record go into the report**, whatever becomes of it. -/
theorem adds_place (h : place p r s = (.ok (), s')) : Adds s.report s'.report 0 0 0 r.total := by
  -- One case for each of the four ways that a record can go.
  cases hMoves : moves? s.world.catalog r with
  | none =>
    rw [place_of_unknown hMoves] at h
    cases h
    have hAdds := adds_count s (.letGo r.total)
    rwa [show (Tally.letGo r.total).created + (Tally.letGo r.total).discarded = r.total from
      Nat.zero_add _] at hAdds
  | some moves =>
    cases moves with
    | true =>
      rw [place_of_moves hMoves] at h
      exact adds_placeMoveable h
    | false =>
      cases hFixture : s.world.fixture? p s.claimed r.typeId with
      | none =>
        rw [place_of_no_fixture hMoves hFixture] at h
        exact adds_throwAway h
      | some id =>
        rw [place_of_fixture hMoves hFixture] at h
        exact adds_bindFixture h

/-! ## §2. Rows. -/

/-- The records that can be read one after another, at most so many. -/
def readUpTo (c : Catalog) : Nat → Reader → List Record
  | 0, _ => []
  | n + 1, r =>
    match Record.decode c r with
    | .error _ => []
    | .ok (record, r) => record :: readUpTo c n r

/-- **Records are brought back up to the first one that cannot be read**; if there is one, the row
has failed. -/
theorem adds_placeAll (house : UInt32) (p : Position) (total left : Nat) :
    ∀ {r : Reader} {s : Restoring}, s.world.Sound → (s.world.graph.tile? p).isSome →
      Adds s.report (placeAll house p total left r s).report 0 0
        ((readUpTo s.world.catalog left r).length != left).toNat
        (Record.totals (readUpTo s.world.catalog left r)) := by
  induction left with
  | zero => exact fun _ _ => ⟨rfl, rfl, rfl, rfl⟩
  | succ left ih =>
    intro r s hs hTile
    rw [placeAll, readUpTo]
    cases hDecode : Record.decode s.world.catalog r with
    | error failure =>
      exact ⟨rfl, rfl, rfl, rfl⟩
    | ok result =>
      obtain ⟨record, r'⟩ := result
      obtain ⟨s', hPlace, hPlaced⟩ := place_of_fits hs hTile (Record.fits_of_decode hDecode)
      have hRest := ih (r := r') (hPlaced.keeps.sound hs)
        (by rw [hPlaced.keeps.tiles]; exact hTile)
      rw [hPlaced.keeps.catalog] at hRest
      have hBoth := (adds_place hPlace).trans hRest
      dsimp only
      rw [hPlace, List.length_cons, Record.totals]
      -- One record more was asked for, and one more was read.
      have hSucc : ((readUpTo s.world.catalog left r').length + 1 != left + 1)
          = ((readUpTo s.world.catalog left r').length != left) := by
        simp [bne]
      rw [hSucc]
      simpa only [Nat.zero_add] using hBoth

end Restoring

/-- The records of a row that are brought back: those of a tile that is there, up to the first one
that cannot be read. -/
def recordsOf (w : World) (row : TileRow) : List Record :=
  match Restoring.readHead (Reader.ofOctets row.data) with
  | none => []
  | some ((p, count), r) =>
    if (w.graph.tile? p).isSome then Restoring.readUpTo w.catalog count.toNat r else []

/-- Whether a row is for a tile that is not there. -/
def skips (w : World) (row : TileRow) : Bool :=
  match Restoring.readHead (Reader.ofOctets row.data) with
  | none => false
  | some ((p, _), _) => !(w.graph.tile? p).isSome

/-- Whether a row has no room for its head, or not as many records can be read as it says. -/
def breaksOff (w : World) (row : TileRow) : Bool :=
  match Restoring.readHead (Reader.ofOctets row.data) with
  | none => true
  | some ((p, count), _) =>
    (w.graph.tile? p).isSome && (w.recordsOf row).length != count.toNat

namespace Restoring

variable {s : Restoring}

/-- **A row.** -/
theorem adds_restoreRow (hs : s.world.Sound) (row : TileRow) :
    Adds s.report (restoreRow s row).report 1 (s.world.skips row).toNat
      (s.world.breaksOff row).toNat (Record.totals (s.world.recordsOf row)) := by
  unfold breaksOff skips recordsOf
  -- A row is too short, or names a tile that is there, or one that is missing.
  cases hHead : readHead (Reader.ofOctets row.data) with
  | none =>
    rw [(restoreRow_of_short s hHead).2]
    exact ⟨rfl, rfl, rfl, rfl⟩
  | some head =>
    obtain ⟨⟨p, count⟩, r⟩ := head
    dsimp only
    by_cases hThere : (s.world.graph.tile? p).isSome = true
    · have hBegun : Adds s.report s.begun.report 1 0 0 0 := ⟨rfl, rfl, rfl, rfl⟩
      have hAll := hBegun.trans (adds_placeAll row.house p count.toNat count.toNat (r := r)
        (s := s.begun) hs hThere)
      simp only [Nat.zero_add, Nat.add_zero] at hAll
      rw [restoreRow_of_head hHead hThere, hThere, if_pos rfl]
      exact hAll
    · have hMissing : s.world.graph.tile? p = none := by simpa using hThere
      rw [(restoreRow_of_missing hHead hMissing).2, hMissing]
      exact ⟨rfl, rfl, rfl, rfl⟩

/-- A world that is kept has the same to say of every row. -/
theorem of_keeps {w w' : World} (h : Keeps w w') (row : TileRow) :
    w'.recordsOf row = w.recordsOf row ∧ w'.skips row = w.skips row
      ∧ w'.breaksOff row = w.breaksOff row := by
  unfold breaksOff skips recordsOf
  rw [h.catalog]
  simp only [h.tiles, and_self]

/-- **Rows one after another.** -/
theorem adds_restoreRows (rows : List TileRow) : ∀ {s : Restoring}, s.world.Sound →
    Adds s.report (rows.foldl restoreRow s).report rows.length (rows.countP s.world.skips)
      (rows.countP s.world.breaksOff) (Record.totals (rows.flatMap s.world.recordsOf)) := by
  induction rows with
  | nil => exact fun _ => ⟨rfl, rfl, rfl, rfl⟩
  | cons row rows ih =>
    intro s hs
    have hKeeps := keeps_restoreRow hs row
    have hRest := ih (hKeeps.sound hs)
    -- What is skipped, breaks off and is read is told by catalog and tiles, which rows keep.
    have hSame := of_keeps hKeeps
    rw [funext fun row => (hSame row).2.1, funext fun row => (hSame row).2.2,
      show (restoreRow s row).world.recordsOf = s.world.recordsOf from
        funext fun row => (hSame row).1] at hRest
    have hBoth := (adds_restoreRow hs row).trans hRest
    have hCount : ∀ test : TileRow → Bool,
        (row :: rows).countP test = (test row).toNat + rows.countP test := by
      intro test
      rw [List.countP_cons, Nat.add_comm]
      cases test row <;> rfl
    rw [List.length_cons, hCount, hCount, List.flatMap_cons, Record.totals_append, Nat.add_comm]
    exact hBoth

end Restoring

/-! ## §3. Loading. -/

/-- The report of a load adds up. -/
structure Accounts (w : World) (rows : List TileRow) (report : LoadReport) : Prop where
  /-- Every row is counted. -/
  counted : report.rows = rows.length
  /-- Rows for tiles that are not there are skipped, and no others. -/
  skipped : report.skipped = rows.countP w.skips
  /-- Rows with a short head fail, and those with a record that cannot be read. -/
  failed : report.failed = rows.countP w.breaksOff
  /-- No row is skipped and fails, too. -/
  apart : ∀ row ∈ rows, ¬ (w.skips row = true ∧ w.breaksOff row = true)
  /-- Every item of the records that are brought back is counted once. -/
  items : report.items.created + report.items.discarded + report.matched
    = Record.totals (rows.flatMap w.recordsOf)

/-- A row that is skipped does not fail. -/
theorem breaksOff_of_skips {w : World} {row : TileRow} (h : w.skips row = true) :
    w.breaksOff row = false := by
  unfold skips at h
  unfold breaksOff
  cases hHead : Restoring.readHead (Reader.ofOctets row.data) with
  | none =>
    rw [hHead] at h
    cases h
  | some head =>
    rw [hHead] at h
    -- A row with a head is skipped for want of its tile, and then no record of it is read.
    dsimp only at h ⊢
    rw [Bool.not_eq_true' _ |>.mp h]
    rfl

variable {c : Catalog} {b : Blueprint} {w : World}

/-- **The report of a load adds up.**  Whatever rows are loaded into a world that can be reached,
every row is counted, at most once as skipped or failed, and every item of the records that were
read from rows of tiles that are there goes into just one of the counts of items. -/
theorem accounts_loadItems (hw : Reached c b w) (rows : List TileRow) :
    Accounts w rows (w.restoreRows rows).report
      ∧ ∀ a : Archive, a.tileRows = .ok rows →
        ∃ loaded, w.loadItems a = .ok loaded ∧ Accounts w rows loaded.report := by
  have hAdds := Restoring.adds_restoreRows rows (s := { world := w }) hw.sound
  have hAccounts : Accounts w rows (w.restoreRows rows).report := by
    constructor
    case counted => exact hAdds.rows.trans (Nat.zero_add _)
    case skipped => exact hAdds.skipped.trans (Nat.zero_add _)
    case failed => exact hAdds.failed.trans (Nat.zero_add _)
    case apart =>
      rintro row - ⟨hSkips, hBreaks⟩
      rw [breaksOff_of_skips hSkips] at hBreaks
      cases hBreaks
    case items => exact hAdds.items.trans (Nat.zero_add _)
  refine ⟨hAccounts, ?_⟩
  intro a hRows
  -- A load is the rows, and a notice at the end.
  have hLoads : w.loadItems a = .ok
      { world := (w.restoreRows rows).world, report := (w.restoreRows rows).report
        notices := (w.restoreRows rows).notices ++ [.itemsLoaded (w.restoreRows rows).report] } := by
    unfold loadItems
    rw [hRows]
    rfl
  exact ⟨_, hLoads, hAccounts⟩

/-! ## §4. A door, bags, and something unknown. -/

/-- A catalog of bags and doors. -/
def cellarCatalog : Catalog where
  types := bagCatalog.types.insert 3 { id := 3, group := .door }
  keyed := bagCatalog.keyed_insert { id := 3, group := .door }

/-- A house with one tile, on which there is a door. -/
def cellar : Blueprint where
  houses := [{ id := 1, name := "", entry := .zero }]
  tiles := [⟨.zero, some 1, [.mk { typeId := 3 } []]⟩]

/-- The world of that house. -/
def cellarWorld : World :=
  (ofBlueprint cellarCatalog cellar).1.toOption.getD {}

/-- A row with two doors, an item of a type that the catalog does not have, and a bag in a bag. -/
def cellarRow : TileRow where
  house := 1
  data := [0, 0, 0, 0, 0, 4, 0, 0, 0] ++ [3, 0, 0] ++ [3, 0, 0] ++ [9, 0, 0]
    ++ (ItemTree.node bag [.node bag []]).encode bagCatalog

/-- That row, one for a tile that is not there, one without a head, and one with a record that is
cut short. -/
def cellarRows : List TileRow :=
  [cellarRow, bagRow ⟨9, 9, 7⟩, shortRow, Restoring.brokenRow]

/-- Of four rows one is skipped and two fail.  One door goes to the door of the map and the other
one is thrown away, the unknown item is let go, and three bags are made, one of them from the row
that fails behind it: six items in all. -/
theorem accounts_loadItems_bags :
    (ofBlueprint cellarCatalog cellar).1 = .ok cellarWorld
      ∧ (storedRows cellarRows).tileRows = .ok cellarRows
      ∧ (cellarWorld.restoreRows cellarRows).report
        = { rows := 4, skipped := 1, failed := 2, matched := 1, throwaway := 1
            items := { created := 3, discarded := 2 } }
      ∧ Record.totals (cellarRows.flatMap cellarWorld.recordsOf) = 6
      ∧ Accounts cellarWorld cellarRows (cellarWorld.restoreRows cellarRows).report
      ∧ ∃ loaded, cellarWorld.loadItems (storedRows cellarRows) = .ok loaded
        ∧ Accounts cellarWorld cellarRows loaded.report := by
  have hBuilds : (ofBlueprint cellarCatalog cellar).1.toOption.isSome = true := by
    decide +kernel
  have hBuilt : (ofBlueprint cellarCatalog cellar).1 = .ok cellarWorld := by
    unfold cellarWorld
    exact eq_ok_of_isSome (ofBlueprint cellarCatalog cellar).1 ({} : World) hBuilds
  have hRows := tileRows_storedRows cellarRows
  -- The report is computed, and the account of it is the theorem's.
  have hReport : (cellarWorld.restoreRows cellarRows).report
      = { rows := 4, skipped := 1, failed := 2, matched := 1, throwaway := 1
          items := { created := 3, discarded := 2 } } := by
    decide +kernel
  obtain ⟨hAccounts, hLoads⟩ := accounts_loadItems (.drawn hBuilt) cellarRows
  have hItems : Record.totals (cellarRows.flatMap cellarWorld.recordsOf) = 6 := by
    decide +kernel
  exact ⟨hBuilt, hRows, hReport, hItems, hAccounts, hLoads _ hRows⟩

end World

end Homestead
