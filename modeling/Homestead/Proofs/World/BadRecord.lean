/-
  Homestead.Proofs.World.BadRecord
  ────────────────────────────────
  **A RECORD THAT CANNOT BE READ DOES NOTHING.**

  In a world that can be reached, bringing back a record that was read never
  fails, so a row stops only where a record cannot be read.  What the row
  has done to the world then is what a row with the records before it does:
  one for the same tile, with as many records and no other octets.  A row
  whose head is short, or whose tile is not there, does nothing at all.

  Main results:
    * `placeEach_of_fits` — records that fit are all brought back;
    * `readHead_cut`, `times_cut` — what is in a row that is cut off;
    * `bad_record_does_nothing` — rows that cannot be read to their end.
-/
import Homestead.Proofs.World.Reached
import Homestead.Proofs.World.Restart

open Homestead.Stream

namespace Homestead

/-! ## §1. Rows that are cut off. -/

/-- The row of the same tile that ends at a position and says that it has so many records.  The
number of records is in the four octets behind the first five. -/
def TileRow.cut (row : TileRow) (count position : Nat) : TileRow :=
  { row with data := row.data.take 5 ++ littleEndian 4 count ++ (row.data.take position).drop 9 }

namespace Stream.Reader

/-- What is passed is as long as the position says. -/
theorem Passes.length_of_position {r r' : Reader} {used : List UInt8} {n : Nat}
    (h : Passes r r' used) (hPosition : r'.position = r.position + n) : used.length = n := by
  have := h.position_eq
  omega

end Stream.Reader

namespace World.Restoring

open Stream.Reader

/-- The octets of a head: five for the position, four for the number. -/
theorem readHead_eq_some {r r' : Reader} {p : Position} {count : UInt32}
    (h : readHead r = some ((p, count), r')) :
    ∃ place number, place.length = 5 ∧ number.length = 4 ∧ Passes r r' (place ++ number)
      ∧ ∀ (k : Nat) (rest : List UInt8), k < 4294967296 →
        readHead ⟨r.position, place ++ (littleEndian 4 k ++ rest)⟩
          = some ((p, UInt32.ofNat k), ⟨r'.position, rest⟩) := by
  unfold readHead at h
  obtain ⟨⟨x, r₁⟩, hx, h⟩ := Option.bind_eq_some_iff.1 h
  obtain ⟨⟨y, r₂⟩, hy, h⟩ := Option.bind_eq_some_iff.1 h
  obtain ⟨⟨z, r₃⟩, hz, h⟩ := Option.bind_eq_some_iff.1 h
  obtain ⟨⟨n, r₄⟩, hn, h⟩ := Option.bind_eq_some_iff.1 h
  obtain ⟨hHead, rfl⟩ := Prod.mk.inj (Option.some_inj.1 h)
  obtain ⟨rfl, rfl⟩ := Prod.mk.inj hHead
  -- Each number is read from its own octets, whatever stands behind them.
  obtain ⟨xs, hxs, hx'⟩ := local_u16 r x r₁ hx
  obtain ⟨ys, hys, hy'⟩ := local_u16 r₁ y r₂ hy
  obtain ⟨zs, hzs, hz'⟩ := local_u8 r₂ z r₃ hz
  obtain ⟨ns, hns, _⟩ := local_u32 r₃ n r₄ hn
  -- How many octets each number takes.
  obtain ⟨_, hPasses, hLength⟩ := u16_passes hx
  have hxLength := hxs.length_of_position (hLength ▸ hPasses.position_eq)
  obtain ⟨_, hPasses, hLength⟩ := u16_passes hy
  have hyLength := hys.length_of_position (hLength ▸ hPasses.position_eq)
  obtain ⟨_, hPasses, hLength⟩ := u8_passes hz
  have hzLength := hzs.length_of_position (hLength ▸ hPasses.position_eq)
  obtain ⟨_, hPasses, hLength⟩ := u32_passes hn
  have hnLength := hns.length_of_position (hLength ▸ hPasses.position_eq)
  refine ⟨xs ++ (ys ++ zs), ns, ?_, hnLength, ?_, ?_⟩
  · rw [List.length_append, List.length_append, hxLength, hyLength, hzLength]
  · exact (hxs.trans (hys.trans hzs)).trans hns
  · intro k rest hk
    -- Another number of records takes four octets as well, and so the reader ends in the same
    -- place.
    have hNumber : u32 ⟨r₃.position, littleEndian 4 k ++ rest⟩
        = some (UInt32.ofNat k, ⟨r₃.position + 4, rest⟩) := by
      unfold u32
      rw [number_littleEndian 4 k hk]
      rfl
    have hEnd : r₃.position + 4 = r₄.position := by
      rw [hns.position_eq, hnLength]
    unfold readHead
    rw [List.append_assoc, List.append_assoc]
    simp only [hx', hy', hz', hNumber, hEnd, Option.bind_eq_bind, Option.bind_some]
    rfl

/-- The row that is cut off has the head that it says, and behind it what was passed. -/
theorem readHead_cut {row : TileRow} {p : Position} {count : UInt32} {r r' : Reader}
    {used : List UInt8} (h : readHead (Reader.ofOctets row.data) = some ((p, count), r))
    (hPasses : Passes r r' used) {k : Nat} (hk : k < 4294967296) :
    readHead (Reader.ofOctets (row.cut k r'.position).data)
      = some ((p, UInt32.ofNat k), ⟨r.position, used⟩) := by
  obtain ⟨place, number, hPlace, hNumber, hHead, hAgain⟩ := readHead_eq_some h
  have hData : row.data = (place ++ number) ++ (used ++ r'.rest) := by
    rw [← hPasses.rest_eq]
    exact hHead.rest_eq
  have hFront : row.data.take 5 = place := by
    rw [hData, List.append_assoc, ← hPlace, List.take_left]
  have hEnd : r'.position = (place ++ number ++ used).length := by
    rw [hPasses.position_eq, hHead.position_eq]
    simp only [Reader.ofOctets, List.length_append, Nat.zero_add]
  -- Behind the nine octets of the head, and before where the reader stands, is what it passed.
  have hUsed : (row.data.take r'.position).drop 9 = used := by
    have hNine : (place ++ number).length = 9 := by
      rw [List.length_append, hPlace, hNumber]
    rw [hData, ← List.append_assoc, hEnd, List.take_left, ← hNine, List.drop_left]
  unfold TileRow.cut
  dsimp only
  rw [hFront, hUsed, List.append_assoc]
  exact hAgain k used hk

/-! ## §2. Many records. -/

/-- Brings records back, one after another, up to the first that is refused. -/
def placeEach (p : Position) : List Record → Restoring → Except Record.DecodeError Unit × Restoring
  | [], s => (.ok (), s)
  | r :: rs, s =>
    match place p r s with
    | (.error e, s) => (.error e, s)
    | (.ok (), s) => placeEach p rs s

variable {s s' : Restoring} {p : Position}

/-- **Records that fit are all brought back.** -/
theorem placeEach_of_fits {rs : List Record} (hs : s.world.Sound)
    (hTile : (s.world.graph.tile? p).isSome) (hFits : ∀ r ∈ rs, r.Fits s.world.catalog) :
    ∃ s', placeEach p rs s = (.ok (), s') ∧ Placed s s' := by
  induction rs generalizing s with
  | nil => exact ⟨s, rfl, Keeps.refl _, rfl, rfl⟩
  | cons r rs ih =>
    obtain ⟨hFirst, hOthers⟩ := List.forall_mem_cons.1 hFits
    -- The first record leaves a sound world with the tile in it, so the others come back as well.
    obtain ⟨s₁, hPlace, hPlaced⟩ := place_of_fits hs hTile hFirst
    obtain ⟨s₂, hEach, hPlaced'⟩ := ih (hPlaced.keeps.sound hs)
      (by rw [hPlaced.keeps.tiles]; exact hTile)
      (by rw [hPlaced.keeps.catalog]; exact hOthers)
    refine ⟨s₂, ?_, hPlaced.trans hPlaced'⟩
    rw [placeEach, hPlace]
    exact hEach

/-- The records that a row begins with are brought back before the rest of it is read. -/
theorem placeAll_of_times (house : UInt32) (p : Position) (total left : Nat) (k : Nat) :
    ∀ {r r' : Reader} {rs : List Record} {s s' : Restoring}, s.world.Sound →
      Record.times (Record.decode s.world.catalog) k r = .ok (rs, r') →
      placeEach p rs s = (.ok (), s') →
      placeAll house p total (left + k) r s = placeAll house p total left r' s' := by
  induction k with
  | zero =>
    intro r r' rs s s' _ hTimes hEach
    obtain ⟨rfl, rfl⟩ := Prod.mk.inj (Except.ok.inj hTimes)
    obtain ⟨_, rfl⟩ := Prod.mk.inj hEach
    rfl
  | succ k ih =>
    intro r r' rs s s' hs hTimes hEach
    obtain ⟨record, r₁, rs', hDecode, hRest, rfl⟩ := Record.times_succ_eq_ok.1 hTimes
    -- The catalog stays, so the rest of the row is read as before.
    have hChanges : Changes anyBinding s.world (place p record s).2.world :=
      changes_place hs ((Record.fromFields_givenByReading _).decode hDecode) fun _ _ => trivial
    rw [placeEach] at hEach
    rw [← Nat.add_assoc, placeAll, hDecode]
    dsimp only
    revert hEach hChanges
    cases place p record s with
    | mk result s₁ =>
      intro hEach hChanges
      cases result with
      | error e => cases hEach
      | ok _ =>
        dsimp only at hEach hChanges ⊢
        rw [← hChanges.catalog] at hRest
        exact ih (hChanges.sound hs) hRest hEach

/-! ## §3. Rows that cannot be read to their end. -/

/-- The rows say that they have the records that are in them. -/
theorem times_cut {c : Catalog} {row : TileRow} {count : UInt32} {k : Nat} {r r' : Reader}
    {rs : List Record} (hHead : readHead (Reader.ofOctets row.data) = some ((p, count), r))
    (hTimes : Record.times (Record.decode c) k r = .ok (rs, r')) (hk : k < count.toNat) :
    ∃ start, readHead (Reader.ofOctets (row.cut k r'.position).data)
        = some ((p, UInt32.ofNat k), start)
      ∧ Record.times (Record.decode c) k start = .ok (rs, ⟨r'.position, []⟩) := by
  obtain ⟨used, hPasses, hAgain⟩ := Record.local_times (Record.local_decode c) k r rs r' hTimes
  have hSmall : k < 4294967296 := Nat.lt_trans hk count.toNat_lt
  have hRead := hAgain []
  rw [List.append_nil] at hRead
  exact ⟨⟨r.position, used⟩, readHead_cut hHead hPasses hSmall, hRead⟩

/-- Where a record cannot be read, the row has done what one with the records before it does. -/
theorem restoreRow_of_failure (hs : s.world.Sound) (hTile : (s.world.graph.tile? p).isSome)
    {row : TileRow} {count : UInt32} {k : Nat} {r r' : Reader} {rs : List Record}
    {failure : Record.Failure}
    (hHead : readHead (Reader.ofOctets row.data) = some ((p, count), r))
    (hTimes : Record.times (Record.decode s.world.catalog) k r = .ok (rs, r'))
    (hk : k < count.toNat) (hFails : Record.decode s.world.catalog r' = .error failure) :
    (restoreRow s row).world = (restoreRow s (row.cut k r'.position)).world := by
  obtain ⟨start, hCut, hStart⟩ := times_cut hHead hTimes hk
  have hFits := Record.forall_of_times (fun _ _ _ => Record.fits_of_decode) k hTimes
  have hBegun : s.begun.world.Sound := hs
  obtain ⟨s', hEach, hPlaced⟩ := placeEach_of_fits hBegun hTile hFits
  have hNat : (UInt32.ofNat k).toNat = k := by
    rw [UInt32.toNat_ofNat', Nat.mod_eq_of_lt (Nat.lt_trans hk count.toNat_lt)]
  -- The one that is cut off comes to its end after these records.
  have hShort := placeAll_of_times row.house p k 0 k hBegun hStart hEach
  rw [Nat.zero_add] at hShort
  rw [restoreRow_of_head hCut hTile, hNat]
  show _ = (placeAll row.house p k k start s.begun).world
  rw [hShort]
  -- The other one reads on and finds the record that cannot be read.
  obtain ⟨left, hLeft⟩ := Nat.exists_eq_add_of_lt hk
  have hTotal : count.toNat = (left + 1) + k := by omega
  have hLong := placeAll_of_times row.house p count.toNat (left + 1) k hBegun hTimes hEach
  rw [← hTotal] at hLong
  have hCatalog : s'.world.catalog = s.world.catalog := hPlaced.keeps.catalog
  have hStop : (placeAll row.house p count.toNat (left + 1) r' s').world = s'.world := by
    rw [placeAll, hCatalog, hFails]
    rfl
  rw [restoreRow_of_head hHead hTile, hLong]
  exact hStop

variable {c : Catalog} {b : Blueprint}

/-- **A record that cannot be read has no effect.**  In a world that can be reached, records that
were read are all brought back, whatever items other records have gone to.  So a row with a record
that cannot be read does to the world what the row does that is cut off in front of that record,
which has the same tile, and the records before it, and nothing else in it.  A row with a short
head does nothing to the world, and neither does one for a tile that is not there. -/
theorem bad_record_does_nothing (hw : Reached c b s.world) (row : TileRow) :
    (∀ p rs, (s.world.graph.tile? p).isSome →
      (∀ record ∈ rs, ∃ r r', Record.decode s.world.catalog r = .ok (record, r')) →
      (placeEach p rs s).1 = .ok ())
    ∧ (∀ p count r k rs r' failure,
      readHead (Reader.ofOctets row.data) = some ((p, count), r) → k < count.toNat →
      Record.times (Record.decode s.world.catalog) k r = .ok (rs, r') →
      Record.decode s.world.catalog r' = .error failure →
      (restoreRow s row).world = (restoreRow s (row.cut k r'.position)).world
      ∧ ∃ start, readHead (Reader.ofOctets (row.cut k r'.position).data)
          = some ((p, UInt32.ofNat k), start)
        ∧ Record.times (Record.decode s.world.catalog) k start = .ok (rs, ⟨r'.position, []⟩))
    ∧ (readHead (Reader.ofOctets row.data) = none → (restoreRow s row).world = s.world)
    ∧ (∀ p count r, readHead (Reader.ofOctets row.data) = some ((p, count), r) →
      s.world.graph.tile? p = none → (restoreRow s row).world = s.world) := by
  refine ⟨?_, ?_, ?_, ?_⟩
  · -- Whatever was read fits the catalog, and records that fit are brought back.
    intro p rs hTile hRead
    have hFits : ∀ record ∈ rs, record.Fits s.world.catalog := by
      intro record hMem
      obtain ⟨r, r', hDecode⟩ := hRead record hMem
      exact Record.fits_of_decode hDecode
    obtain ⟨s', hEach, _⟩ := placeEach_of_fits hw.sound hTile hFits
    rw [hEach]
  · intro p count r k rs r' failure hHead hk hTimes hFails
    obtain ⟨start, hCut, hStart⟩ := times_cut hHead hTimes hk
    refine ⟨?_, start, hCut, hStart⟩
    -- The two rows are for the same tile, so both do nothing where it is missing.
    cases hTile : s.world.graph.tile? p with
    | none => rw [(restoreRow_of_missing hHead hTile).1, (restoreRow_of_missing hCut hTile).1]
    | some t =>
      exact restoreRow_of_failure hw.sound (by rw [hTile]; rfl) hHead hTimes hk hFails
  · exact fun hShort => (restoreRow_of_short s hShort).1
  · exact fun p count r hHead hTile => (restoreRow_of_missing hHead hTile).1

/-! ## §4. A bag, and half of one. -/

/-- A row that says it has two bags; the second one ends behind the number of its type. -/
def brokenRow : TileRow where
  house := 1
  data := tileOctets bagCatalog .zero [.node bag [], .node bag []] |>.take 19

/-- What is read of that row. -/
def firstBag : List Record × Reader :=
  (Record.times (Record.decode bagCatalog) 1 ⟨9, brokenRow.data.drop 9⟩).toOption.getD ([], ⟨0, []⟩)

/-- The first bag is on its tile, as if nothing else had been in the row. -/
theorem bad_record_does_nothing_bags :
    (ofBlueprint bagCatalog emptyHouse).1 = .ok houseWorld
      ∧ (restoreRow { world := houseWorld } brokenRow).report.failed = 1
      ∧ ((restoreRow { world := houseWorld } brokenRow).world.treesOn .zero).map ItemTree.size = [1]
      ∧ (restoreRow { world := houseWorld } brokenRow).world
        = (restoreRow { world := houseWorld } (brokenRow.cut 1 17)).world := by
  have hBuilds : (ofBlueprint bagCatalog emptyHouse).1.toOption.isSome = true := by
    decide +kernel
  have hBuilt : (ofBlueprint bagCatalog emptyHouse).1 = .ok houseWorld := by
    unfold houseWorld
    exact eq_ok_of_isSome (ofBlueprint bagCatalog emptyHouse).1 ({} : World) hBuilds
  have hCatalog : houseWorld.catalog = bagCatalog := (drawn_ofBlueprint hBuilt).catalog
  have hHead : readHead (Reader.ofOctets brokenRow.data)
      = some ((.zero, 2), ⟨9, brokenRow.data.drop 9⟩) := by
    decide +kernel
  -- One record is read from the row, and the second one is not.
  have hReads : (Record.times (Record.decode bagCatalog) 1
      ⟨9, brokenRow.data.drop 9⟩).toOption.isSome = true := by
    decide +kernel
  have hTimes : Record.times (Record.decode bagCatalog) 1 ⟨9, brokenRow.data.drop 9⟩
      = .ok (firstBag.1, firstBag.2) := by
    unfold firstBag
    exact eq_ok_of_isSome _ ([], ⟨0, []⟩) hReads
  have hPosition : firstBag.2.position = 17 := by
    decide +kernel
  have hStops : (Record.decode bagCatalog firstBag.2).toOption.isSome = false := by
    decide +kernel
  obtain ⟨failure, hFails⟩ : ∃ failure, Record.decode bagCatalog firstBag.2 = .error failure := by
    cases h : Record.decode bagCatalog firstBag.2 with
    | error failure => exact ⟨failure, rfl⟩
    | ok result =>
      rw [h] at hStops
      cases hStops
  refine ⟨hBuilt, by decide +kernel, by decide +kernel, ?_⟩
  have hReached : Reached bagCatalog emptyHouse ({ world := houseWorld } : Restoring).world :=
    .drawn hBuilt
  have hEffect := ((bad_record_does_nothing hReached brokenRow).2.1 .zero 2 _ 1 _ _ failure hHead
    (by decide) (hCatalog ▸ hTimes) (hCatalog ▸ hFails)).1
  rwa [hPosition] at hEffect

end World.Restoring

end Homestead
