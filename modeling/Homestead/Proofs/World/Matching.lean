/-
  Homestead.Proofs.World.Matching
  ───────────────────────────────
  **NO DOOR AND NO BED IS LOST.**

  A record of what does not move goes to the first free item of its type on
  the tile, and a door or a bed that finds none goes to the first free door
  or bed.  The item gets the type of the record, so the types on the tile
  change while the row is read; but a door becomes a door and a bed a bed.
  Therefore a record of a door takes one free door, if there is one, and no
  other record takes any: of the records of doors as many are bound as
  there are doors, whichever types they name and in whichever order, and
  only the others are thrown away.  The same holds of beds.

  Main results:
    * `Ready.isOf_of_bound`, `Ready.mem_claimed_of_thrownAway` — which items
      a record can go to, and when none is left;
    * `Ready.freeOf_of_dealt` — one record takes one free door or none;
    * `DealtAll`, `dealtAll_placeEach` — the records of a row;
    * `no_fixture_lost` — a row of a load.
-/
import Homestead.Proofs.House.Fixtures
import Homestead.Proofs.World.Lots
import Homestead.Proofs.World.RowsApart

open Homestead.Stream

namespace Homestead

/-! ## §1. Doors and beds. -/

/-- Whether a type is one of doors, or of beds. -/
def Fixture.ofTypeId (f : Fixture) (c : Catalog) (typeId : TypeId) : Bool :=
  (c.get? typeId).any f.ofType

/-- Whether an item is of such a type. -/
def Graph.isOf (c : Catalog) (f : Fixture) (g : Graph) (id : ItemId) : Bool :=
  (g.typeId? id).any (f.ofTypeId c)

/-- Whether a record is of such a type. -/
def Record.isOf (c : Catalog) (f : Fixture) (r : Record) : Bool :=
  r.known && f.ofTypeId c r.typeId

/-- Of a list without repetitions one item counts in another way. -/
theorem countP_change {ids : List ItemId} {id : ItemId} (before after : ItemId → Bool)
    (hNodup : ids.Nodup) (hMem : id ∈ ids)
    (hSame : ∀ other ∈ ids, other ≠ id → after other = before other) :
    ids.countP after + (before id).toNat = ids.countP before + (after id).toNat := by
  induction ids with
  | nil => cases hMem
  | cons first ids ih =>
    obtain ⟨hFirst, hRest⟩ := List.nodup_cons.1 hNodup
    rw [List.countP_cons, List.countP_cons]
    -- The item is the first of the list, or stands further behind.
    by_cases hHere : first = id
    · subst hHere
      have hOthers : ids.countP after = ids.countP before := by
        refine List.countP_congr fun other hOther => ?_
        rw [hSame other (List.mem_cons_of_mem _ hOther) fun h => hFirst (h ▸ hOther)]
      rw [hOthers]
      cases before first <;> cases after first <;> simp
    · have hTail := ih hRest ((List.mem_cons.1 hMem).resolve_left fun h => hHere h.symm)
        fun other hOther => hSame other (List.mem_cons_of_mem _ hOther)
      rw [hSame first List.mem_cons_self hHere]
      omega

namespace World

/-- How many doors lie on a tile, or how many beds. -/
def countOn (w : World) (p : Position) (f : Fixture) : Nat :=
  (w.graph.contents (.tile p)).countP fun id => (w.graph.item? id).any f.ofItem

namespace Restoring

variable {c : Catalog} {s s' : Restoring} {p : Position} {r : Record} {id : ItemId}

/-! ## §2. Where a record goes. -/

/-- A door goes to a free item of its type, or else to the first free door; a bed likewise. -/
theorem fixture?_of_ofType {w : World} {claimed : List ItemId} {typeId : TypeId} {t : ItemType}
    {f : Fixture} (hType : w.catalog.get? typeId = some t) (hOf : f.ofType t = true) :
    w.fixture? p claimed typeId = (w.firstFree? p claimed (·.typeId == typeId)).or
      (w.firstFree? p claimed f.ofItem) := by
  unfold World.fixture?
  cases w.firstFree? p claimed (·.typeId == typeId) with
  | some id => rfl
  | none =>
    -- A type is of one fixture at most, so the other question is answered with no.
    have hDoor : t.isDoor = decide (Fixture.door = f) := Fixture.ofType_eq_of_ofType hOf .door
    have hBed : t.isBed = decide (Fixture.bed = f) := Fixture.ofType_eq_of_ofType hOf .bed
    rw [hType]
    dsimp only
    rw [hDoor, hBed]
    cases f <;> rfl

/-- A tile that a row is brought back to. -/
structure Ready (c : Catalog) (p : Position) (s : Restoring) : Prop where
  /-- The world is sound. -/
  sound : s.world.Sound
  /-- This is its catalog. -/
  catalog : s.world.catalog = c
  /-- Doors and beds do not move. -/
  settled : c.Settled
  /-- The tile is there. -/
  tile : (s.world.graph.tile? p).isSome
  /-- What does not move on it is of known types. -/
  known : ∀ id ∈ s.world.graph.fixtures c p,
    ∃ i t, s.world.graph.item? id = some i ∧ c.get? i.typeId = some t

/-- A door is of a type of doors, and a bed of one of beds. -/
theorem Ready.ofItem_eq (h : Ready c p s) {i : Item} {t : ItemType}
    (hi : s.world.graph.item? id = some i) (hType : c.get? i.typeId = some t) (f : Fixture) :
    f.ofItem i = f.ofType t := by
  have hTyped := h.sound.typed id i hi
  rw [h.catalog] at hTyped
  exact f.ofItem_eq_of_typed hTyped hType

/-- **A record of a door goes to a door only, and no other record does**; the same holds of beds. -/
theorem Ready.isOf_of_bound (h : Ready c p s) (hLot : s.lot p r = .bound id) (f : Fixture) :
    s.world.graph.isOf c f id = f.ofTypeId c r.typeId := by
  obtain ⟨hMoves, hFixture⟩ := lot_eq_bound_iff.1 hLot
  have hSettled : s.world.catalog.Settled := h.catalog ▸ h.settled
  have hid := mem_fixtures h.sound hSettled hMoves hFixture
  rw [h.catalog] at hid
  obtain ⟨i, t, hi, hType⟩ := h.known id hid
  obtain ⟨_, _, i', hi', hBound⟩ := fixture?_eq_some hFixture
  obtain rfl := Option.some_inj.1 (hi.symm.trans hi')
  rw [Graph.isOf, Graph.typeId?, hi, Option.map_some, Option.any_some]
  rcases hBound with hSame | ⟨t', hType', hKind⟩
  · rw [hSame]
  · -- Both are doors, or both are beds.
    rw [h.catalog] at hType'
    have hOf := h.ofItem_eq hi hType
    rw [Fixture.ofTypeId, Fixture.ofTypeId, hType, hType', Option.any_some, Option.any_some]
    rcases hKind with ⟨hDoor, hDoor'⟩ | ⟨hBed, hBed'⟩
    · rw [Fixture.ofType_eq_of_ofType (f := .door) hDoor f]
      exact Fixture.ofType_eq_of_ofType (f := .door) ((hOf .door).symm.trans hDoor') f
    · rw [Fixture.ofType_eq_of_ofType (f := .bed) hBed f]
      exact Fixture.ofType_eq_of_ofType (f := .bed) ((hOf .bed).symm.trans hBed') f

/-- **A door is thrown away only if no door is left**, and a bed only if no bed is. -/
theorem Ready.mem_claimed_of_thrownAway (h : Ready c p s) (hLot : s.lot p r = .thrownAway)
    {f : Fixture} (hRecord : f.ofTypeId c r.typeId = true)
    (hid : id ∈ s.world.graph.fixtures c p) (hOf : s.world.graph.isOf c f id = true) :
    id ∈ s.claimed := by
  by_contra hFree
  obtain ⟨i, t, hi, hType⟩ := h.known id hid
  have hItem : f.ofItem i = true := by
    rw [Graph.isOf, Graph.typeId?, hi, Option.map_some, Option.any_some, Fixture.ofTypeId, hType,
      Option.any_some] at hOf
    rw [h.ofItem_eq hi hType, hOf]
  have hSome : (s.world.firstFree? p s.claimed f.ofItem).isSome :=
    firstFree?_isSome (List.mem_of_mem_filter hid) hFree hi hItem
  -- Such an item would have been found, as the second choice at least.
  obtain ⟨t', hType', hOfType⟩ := (Option.any_eq_true _ _).1 hRecord
  have hNone := fixture?_of_lot_eq_thrownAway hLot
  rw [fixture?_of_ofType (by rw [h.catalog]; exact hType') hOfType, Option.or_eq_none_iff] at hNone
  rw [hNone.2] at hSome
  cases hSome

/-! ## §3. One record. -/

/-- A tile stays ready. -/
theorem Ready.dealt (h : Ready c p s) (hDealt : Dealt p r s s') : Ready c p s' where
  sound := hDealt.keeps.sound h.sound
  catalog := hDealt.keeps.catalog.trans h.catalog
  settled := h.settled
  tile := (hDealt.keeps.tiles p).trans h.tile
  known := by
    intro id hid
    have hTypes := hDealt.typeId?
    have hList := hDealt.fixtures
    rw [h.catalog] at hTypes hList
    rw [hList] at hid
    have hType := hTypes id hid
    split_ifs at hType with hLot
    · -- The type of the record is known, or the record would not go to it.
      obtain ⟨t, ht, _⟩ := type_of_moves? (lot_eq_bound_iff.1 hLot).1
      obtain ⟨i, hi, hSame⟩ := Option.map_eq_some_iff.1 hType
      exact ⟨i, t, hi, by rw [hSame, ← h.catalog, ht]⟩
    · obtain ⟨i, t, hi, ht⟩ := h.known id hid
      rw [Graph.typeId?, Graph.typeId?, hi, Option.map_some] at hType
      obtain ⟨i', hi', hSame⟩ := Option.map_eq_some_iff.1 hType
      exact ⟨i', t, hi', by rw [hSame, ht]⟩

/-- **A door stays a door**, and a bed a bed. -/
theorem Ready.isOf_of_dealt (h : Ready c p s) (hDealt : Dealt p r s s') (f : Fixture)
    (hid : id ∈ s.world.graph.fixtures c p) :
    s'.world.graph.isOf c f id = s.world.graph.isOf c f id := by
  have hTypes := hDealt.typeId?
  rw [h.catalog] at hTypes
  by_cases hLot : s.lot p r = .bound id
  · rw [h.isOf_of_bound hLot f, Graph.isOf, hTypes id hid, if_pos hLot, Option.any_some]
  · rw [Graph.isOf, hTypes id hid, if_neg hLot, Graph.isOf]

/-- How many of the doors on a tile no record has gone to, or how many of the beds. -/
def freeOf (c : Catalog) (p : Position) (f : Fixture) (s : Restoring) : Nat :=
  (s.world.graph.fixtures c p).countP fun id =>
    s.world.graph.isOf c f id && !s.claimed.contains id

/-- Whether a record of a door goes to one, or one of a bed. -/
def takes (c : Catalog) (p : Position) (f : Fixture) (r : Record) (s : Restoring) : Bool :=
  r.isOf c f && (s.lot p r).fixture?.isSome

/-- **A record of a door takes one free door**, if it goes to one, and nothing else does. -/
theorem Ready.freeOf_of_dealt (h : Ready c p s) (hDealt : Dealt p r s s') (f : Fixture) :
    s'.freeOf c p f + (s.takes c p f r).toNat = s.freeOf c p f := by
  have hList := hDealt.fixtures
  rw [h.catalog] at hList
  have hClaimed := hDealt.claimed
  unfold freeOf takes
  rw [hList]
  cases hFixture : (s.lot p r).fixture? with
  | none =>
    rw [hFixture, Option.toList_none, List.append_nil] at hClaimed
    rw [Option.isSome_none, Bool.and_false, hClaimed]
    -- The record goes to no fixture, so each is as free as before.
    exact List.countP_congr fun id hid => by rw [h.isOf_of_dealt hDealt f hid]
  | some id =>
    have hLot : s.lot p r = .bound id := by
      revert hFixture
      cases s.lot p r <;> simp [Lot.fixture?]
    obtain ⟨hMoves, hFound⟩ := lot_eq_bound_iff.1 hLot
    have hid := mem_fixtures h.sound (h.catalog ▸ h.settled) hMoves hFound
    rw [h.catalog] at hid
    obtain ⟨_, hFree, _⟩ := fixture?_eq_some hFound
    have hNodup : (s.world.graph.fixtures c p).Nodup :=
      (h.sound.consistent.nodup (.tile p)).filter _
    rw [hFixture, Option.toList_some] at hClaimed
    -- Only the item that the record goes to counts in another way than before.
    have hOne := countP_change
      (fun other => s.world.graph.isOf c f other && !s.claimed.contains other)
      (fun other => s'.world.graph.isOf c f other && !s'.claimed.contains other) hNodup hid (by
        intro other hOther hne
        rw [h.isOf_of_dealt hDealt f hOther, hClaimed]
        simp [hne])
    -- Before, the item was free, and it counted if its type is of the fixture.
    have hBefore : (s.world.graph.isOf c f id && !s.claimed.contains id)
        = f.ofTypeId c r.typeId := by
      rw [h.isOf_of_bound hLot f]
      simp [hFree]
    -- After it the item is claimed, and counts no more.
    have hAfter : (s'.world.graph.isOf c f id && !s'.claimed.contains id) = false := by
      rw [hClaimed]
      simp
    rw [hBefore, hAfter] at hOne
    rw [Option.isSome_some, Bool.and_true, Record.isOf, known_of_moves? hMoves, Bool.true_and]
    exact hOne

/-- A record of a door that takes none finds none. -/
theorem Ready.freeOf_eq_zero (h : Ready c p s) {f : Fixture} (hLot : s.lot p r = .thrownAway)
    (hRecord : f.ofTypeId c r.typeId = true) : s.freeOf c p f = 0 := by
  refine List.countP_eq_zero.2 ?_
  intro id hid hCounts
  obtain ⟨hOf, hFree⟩ := Bool.and_eq_true_iff.1 hCounts
  have hTaken := h.mem_claimed_of_thrownAway hLot hRecord hid hOf
  simp [hTaken] at hFree

/-- A record of a door or of a bed goes to one or is thrown away. -/
theorem Ready.takes_or_thrownAway (h : Ready c p s) {f : Fixture}
    (hRecord : r.isOf c f = true) : s.takes c p f r = true ∨ s.lot p r = .thrownAway := by
  obtain ⟨hKnown, hOf⟩ := Bool.and_eq_true_iff.1 hRecord
  obtain ⟨t, hType, hOfType⟩ := (Option.any_eq_true _ _).1 hOf
  -- Doors and beds do not move in a settled catalog.
  have hStays : t.moveable = false := by
    by_contra hMoves
    rw [Bool.not_eq_false] at hMoves
    obtain ⟨hDoor, hBed⟩ := h.settled _ _ hType hMoves
    cases f with
    | door => rw [show t.isDoor = true from hOfType] at hDoor; cases hDoor
    | bed => rw [show t.isBed = true from hOfType] at hBed; cases hBed
  have hMoves : moves? s.world.catalog r = some false := by
    rw [moves?, if_pos hKnown, h.catalog, hType, Option.map_some, hStays]
  cases hFixture : s.world.fixture? p s.claimed r.typeId with
  | none => exact .inr (lot_of_no_fixture hMoves hFixture)
  | some id =>
    rw [takes, hRecord, lot_of_fixture hMoves hFixture]
    exact .inl rfl

/-- With one record more, as many records go to doors as there are free ones, if that holds of the
rest. -/
theorem Ready.bound_cons (h : Ready c p s) (hDealt : Dealt p r s s') (f : Fixture) (n : Nat) :
    min n (s'.freeOf c p f) + (s.takes c p f r).toNat
      = min (n + if r.isOf c f then 1 else 0) (s.freeOf c p f) := by
  have hFree := h.freeOf_of_dealt hDealt f
  cases hRecord : r.isOf c f with
  | false =>
    have hTakes : s.takes c p f r = false := by rw [takes, hRecord, Bool.false_and]
    rw [hTakes] at hFree ⊢
    simp at hFree ⊢
    omega
  | true =>
    -- hLot | A record of the kind takes a fixture, or none is free any more.
    rcases h.takes_or_thrownAway hRecord with hTakes | hLot
    · rw [hTakes] at hFree ⊢
      simp at hFree ⊢
      omega
    · have hNone := h.freeOf_eq_zero hLot (Bool.and_eq_true_iff.1 hRecord).2
      omega

/-- And the others are thrown away. -/
theorem Ready.thrown_cons (h : Ready c p s) (hDealt : Dealt p r s s') (f : Fixture) (n : Nat) :
    n - s'.freeOf c p f + (r.isOf c f && s.lot p r == .thrownAway).toNat
      = (n + if r.isOf c f then 1 else 0) - s.freeOf c p f := by
  have hFree := h.freeOf_of_dealt hDealt f
  cases hRecord : r.isOf c f with
  | false =>
    have hTakes : s.takes c p f r = false := by rw [takes, hRecord, Bool.false_and]
    rw [hTakes] at hFree
    simp at hFree ⊢
    omega
  | true =>
    -- It takes one of the free fixtures, or there are none.
    rcases h.takes_or_thrownAway hRecord with hTakes | hLot
    · have hNot : (s.lot p r == .thrownAway) = false := by
        revert hTakes
        rw [takes]
        cases s.lot p r <;> simp [Lot.fixture?]
      rw [hTakes] at hFree
      rw [hNot]
      simp at hFree ⊢
      omega
    · have hNone := h.freeOf_eq_zero hLot (Bool.and_eq_true_iff.1 hRecord).2
      rw [hLot]
      simp
      omega

/-! ## §4. A row. -/

/-- How many records of doors there are among some, or how many of beds, that have a lot. -/
def lotted (c : Catalog) (f : Fixture) (test : Lot → Bool) (rs : List Record) (lots : List Lot) :
    Nat :=
  (rs.zip lots).countP fun e => e.1.isOf c f && test e.2

/-- The records of a lot are counted one by one. -/
theorem lotted_cons (f : Fixture) (test : Lot → Bool) (l : Lot) (rs : List Record)
    (ls : List Lot) : lotted c f test (r :: rs) (l :: ls)
      = lotted c f test rs ls + (r.isOf c f && test l).toNat := by
  unfold lotted
  rw [List.zip_cons_cons, List.countP_cons]
  cases r.isOf c f && test l <;> rfl

/-- The records of a row have been brought back. -/
structure DealtAll (c : Catalog) (p : Position) (rs : List Record) (s s' : Restoring) : Prop where
  /-- The tile is ready for more. -/
  ready : Ready c p s'
  /-- The same items do not move, in the same order. -/
  fixtures : s'.world.graph.fixtures c p = s.world.graph.fixtures c p
  /-- Doors are doors still, and beds are beds. -/
  isOf : ∀ f, ∀ id ∈ s.world.graph.fixtures c p,
    s'.world.graph.isOf c f id = s.world.graph.isOf c f id
  /-- Some more of them have been given away. -/
  claimed : s'.claimed = s.claimed ++ (lots p rs s).filterMap Lot.fixture?
  /-- None has been given away twice. -/
  nodup : s.claimed.Nodup → s'.claimed.Nodup
  /-- Every one is counted. -/
  matched : s'.report.matched
    = s.report.matched + ((lots p rs s).filterMap Lot.fixture?).length
  /-- So is every record that is thrown away. -/
  throwaway : s'.report.throwaway = s.report.throwaway + (lots p rs s).count .thrownAway
  /-- The row has not failed. -/
  failed : s'.report.failed = s.report.failed
  /-- A record goes to something that does not move, and that is a door just if the record is of a
  door. -/
  kept : ∀ e ∈ rs.zip (lots p rs s), ∀ id ∈ e.2.fixture?,
    id ∈ s.world.graph.fixtures c p
      ∧ ∀ f, s.world.graph.isOf c f id = f.ofTypeId c e.1.typeId
  /-- As many records of doors go to doors as there are free ones. -/
  bound : ∀ f, lotted c f (·.fixture?.isSome) rs (lots p rs s)
    = min (rs.countP (·.isOf c f)) (s.freeOf c p f)
  /-- The others are thrown away. -/
  thrown : ∀ f, lotted c f (· == .thrownAway) rs (lots p rs s)
    = rs.countP (·.isOf c f) - s.freeOf c p f

/-- Without records nothing is dealt. -/
theorem dealtAll_nil (h : Ready c p s) : DealtAll c p [] s s where
  ready := h
  fixtures := rfl
  isOf _ _ _ := rfl
  claimed := (List.append_nil _).symm
  nodup h := h
  matched := rfl
  throwaway := rfl
  failed := rfl
  kept _ h := by cases h
  -- Of no records none is bound and none thrown away, however many fixtures are free.
  bound _ := (Nat.zero_min _).symm
  thrown _ := (Nat.zero_sub _).symm

/-- The first record is dealt with, and then the others. -/
theorem DealtAll.cons {rs : List Record} {s'' : Restoring} (h : Ready c p s)
    (hPlace : place p r s = (.ok (), s')) (hDealt : Dealt p r s s')
    (hRest : DealtAll c p rs s' s'') : DealtAll c p (r :: rs) s s'' := by
  have hLots : lots p (r :: rs) s = s.lot p r :: lots p rs s' := by
    rw [lots, hPlace]
  have hList := hDealt.fixtures
  rw [h.catalog] at hList
  -- What the first record does is in `hDealt`, and what the others do in `hRest`.
  constructor
  case ready => exact hRest.ready
  case fixtures => exact hRest.fixtures.trans hList
  case isOf =>
    intro f id hid
    rw [hRest.isOf f id (by rw [hList]; exact hid), h.isOf_of_dealt hDealt f hid]
  case claimed =>
    rw [hRest.claimed, hDealt.claimed, hLots, Lot.filterMap_fixture?_cons, List.append_assoc]
  case nodup =>
    intro hNodup
    refine hRest.nodup ?_
    rw [hDealt.claimed]
    cases hLot : s.lot p r with
    | bound id =>
      obtain ⟨_, hNot, _⟩ := fixture?_eq_some (lot_eq_bound_iff.1 hLot).2
      refine hNodup.append (List.nodup_singleton id) ?_
      rintro other hOther hHere
      exact hNot (List.mem_singleton.1 hHere ▸ hOther)
    | _ => simpa [Lot.fixture?] using hNodup
  case matched =>
    rw [hRest.matched, hDealt.matched, hLots, Lot.filterMap_fixture?_cons, List.length_append,
      Nat.add_assoc]
  case throwaway =>
    rw [hRest.throwaway, hDealt.throwaway, hLots]
    cases s.lot p r <;> simp [Nat.add_assoc, Nat.add_comm]
  case failed => exact hRest.failed.trans hDealt.failed
  case kept =>
    rw [hLots]
    intro e hMem id hid
    rcases List.mem_cons.1 hMem with rfl | hMem
    · -- Only a record that is bound has a fixture.
      have hLot : s.lot p r = .bound id := by
        revert hid
        cases s.lot p r <;> simp [Lot.fixture?]
      obtain ⟨hMoves, hFound⟩ := lot_eq_bound_iff.1 hLot
      have hHere := mem_fixtures h.sound (h.catalog ▸ h.settled) hMoves hFound
      rw [h.catalog] at hHere
      exact ⟨hHere, h.isOf_of_bound hLot⟩
    · obtain ⟨hHere, hOf⟩ := hRest.kept e hMem id hid
      rw [hList] at hHere
      refine ⟨hHere, fun f => ?_⟩
      rw [← h.isOf_of_dealt hDealt f hHere, hOf]
  case bound =>
    intro f
    rw [hLots, lotted_cons, hRest.bound f, List.countP_cons]
    exact h.bound_cons hDealt f (rs.countP (·.isOf c f))
  case thrown =>
    intro f
    rw [hLots, lotted_cons, hRest.thrown f, List.countP_cons]
    exact h.thrown_cons hDealt f (rs.countP (·.isOf c f))

/-- **All records of a row.** -/
theorem dealtAll_placeEach {rs : List Record} (h : Ready c p s)
    (hFits : ∀ r ∈ rs, r.Fits c) (hLasts : AllLast p rs s) :
    ∃ s', placeEach p rs s = (.ok (), s') ∧ DealtAll c p rs s s' := by
  induction rs generalizing s with
  | nil => exact ⟨s, rfl, dealtAll_nil h⟩
  | cons r rs ih =>
    obtain ⟨hFirst, hOthers⟩ := List.forall_mem_cons.1 hFits
    obtain ⟨hLastsFirst, hLastsRest⟩ := hLasts
    obtain ⟨s₁, hPlace, hDealt⟩ := dealt_place h.sound (h.catalog ▸ h.settled) h.tile
      (h.catalog.symm ▸ hFirst) hLastsFirst
    -- What lasts is asked of the world as the first record leaves it.
    rw [hPlace] at hLastsRest
    obtain ⟨s₂, hEach, hRest⟩ := ih (h.dealt hDealt) hOthers hLastsRest
    refine ⟨s₂, ?_, .cons h hPlace hDealt hRest⟩
    rw [placeEach, hPlace]
    exact hEach

/-- All records of a row for a tile that is there are brought back, if all of them can be read. -/
theorem restoreRow_of_records {s : Restoring} (hs : s.world.Sound)
    (hTile : (s.world.graph.tile? p).isSome) {row : TileRow} {count : UInt32} {start rest : Reader}
    {rs : List Record} (hHead : readHead (Reader.ofOctets row.data) = some ((p, count), start))
    (hRecords : Record.times (Record.decode s.world.catalog) count.toNat start = .ok (rs, rest))
    (hEach : placeEach p rs s.begun = (.ok (), s')) : restoreRow s row = s' := by
  rw [restoreRow_of_head hHead hTile]
  have hAll := placeAll_of_times row.house p count.toNat 0 count.toNat (s := s.begun) hs hRecords hEach
  rw [Nat.zero_add] at hAll
  rw [hAll]
  rfl

/-- What a tile has of a kind, it has among what does not move. -/
theorem Ready.countOn_eq (h : Ready c p s) (f : Fixture) :
    s.world.countOn p f = (s.world.graph.fixtures c p).countP (s.world.graph.isOf c f) := by
  rw [countOn, Graph.fixtures, List.countP_filter]
  refine List.countP_congr fun id hMem => ?_
  obtain ⟨n, hn, _⟩ := h.sound.consistent.linked _ _ hMem
  have hi : s.world.graph.item? id = some n.item := Graph.item?_eq_some.2 ⟨n, hn, rfl⟩
  rw [hi, Option.any_some]
  cases hMoves : s.world.graph.moves c id with
  | false =>
    -- What does not move is of a known type.
    obtain ⟨i, t, hi', hType⟩ := h.known id
      (List.mem_filter.2 ⟨hMem, by rw [hMoves]; rfl⟩)
    obtain rfl := Option.some_inj.1 (hi.symm.trans hi')
    rw [h.ofItem_eq hi hType, Graph.isOf, Graph.typeId?, hi, Option.map_some, Option.any_some,
      Fixture.ofTypeId, hType, Option.any_some, Bool.not_false, Bool.and_true]
  | true =>
    -- What moves is neither a door nor a bed.
    rw [Graph.moves, Graph.typeId?, hi, Option.map_some, Option.any_some] at hMoves
    cases hType : c.get? n.item.typeId with
    | none =>
      rw [hType] at hMoves
      cases hMoves
    | some t =>
      rw [hType] at hMoves
      obtain ⟨hDoor, hBed⟩ := h.settled _ _ hType hMoves
      rw [h.ofItem_eq hi hType, Bool.not_true, Bool.and_false]
      cases f with
      | door => exact iff_of_eq (congrArg (· = true) hDoor)
      | bed => exact iff_of_eq (congrArg (· = true) hBed)

/-- A row has found its fixtures: which records have gone to which items of the tile. -/
structure Matched (c : Catalog) (p : Position) (rs : List Record) (s s' : Restoring) : Prop where
  /-- The row has not failed. -/
  failed : s'.report.failed = s.report.failed
  /-- The items that records have gone to have been given away. -/
  claimed : s'.claimed = (lots p rs s.begun).filterMap Lot.fixture?
  /-- No two records have gone to one item. -/
  apart : s'.claimed.Nodup
  /-- The records that have gone to an item are counted. -/
  matched : s'.report.matched = s.report.matched + s'.claimed.length
  /-- So are those that are thrown away. -/
  throwaway : s'.report.throwaway = s.report.throwaway + (lots p rs s.begun).count .thrownAway
  /-- Records go to what does not move on the tile, those of doors to doors, those of beds to beds,
  and the others to other items. -/
  kept : ∀ e ∈ rs.zip (lots p rs s.begun), ∀ id ∈ e.2.fixture?,
    id ∈ s.world.graph.fixtures c p
      ∧ ∀ f : Fixture, (s.world.graph.item? id).any f.ofItem = f.ofTypeId c e.1.typeId
  /-- As many records of doors go to doors as there are doors; the same holds of beds. -/
  bound : ∀ f, lotted c f (·.fixture?.isSome) rs (lots p rs s.begun)
    = min (rs.countP (·.isOf c f)) (s.world.countOn p f)
  /-- The others are thrown away. -/
  thrown : ∀ f, lotted c f (· == .thrownAway) rs (lots p rs s.begun)
    = rs.countP (·.isOf c f) - s.world.countOn p f
  /-- There are as many doors on the tile as before, and as many beds. -/
  standing : ∀ f, s'.world.countOn p f = s.world.countOn p f
  /-- The items that do not move are the same ones. -/
  fixtures : s'.world.graph.fixtures c p = s.world.graph.fixtures c p

/-- **Fixtures are matched.** -/
theorem Ready.matched (h : Ready c p s) {rs : List Record} (hDealt : DealtAll c p rs s.begun s') :
    Matched c p rs s s' := by
  -- At the beginning of a row nothing is claimed, so all fixtures are free.
  have hCount : ∀ f, s.begun.freeOf c p f = s.world.countOn p f := by
    intro f
    rw [h.countOn_eq]
    refine List.countP_congr fun id _ => ?_
    show (s.world.graph.isOf c f id && !([] : List ItemId).contains id) = true ↔ _
    rw [List.contains_nil, Bool.not_false, Bool.and_true]
  constructor
  case failed => exact hDealt.failed
  case claimed => exact hDealt.claimed
  case apart => exact hDealt.nodup List.nodup_nil
  case matched =>
    rw [hDealt.matched, hDealt.claimed]
    rfl
  case throwaway => exact hDealt.throwaway
  case kept =>
    intro e hMem id hid
    obtain ⟨hHere, hOf⟩ := hDealt.kept e hMem id hid
    obtain ⟨i, t, hi, hType⟩ := h.known id hHere
    refine ⟨hHere, fun f => ?_⟩
    have hKind : s.world.graph.isOf c f id = f.ofTypeId c e.1.typeId := hOf f
    rw [← hKind, hi, Option.any_some, h.ofItem_eq hi hType, Graph.isOf, Graph.typeId?, hi,
      Option.map_some, Option.any_some, Fixture.ofTypeId, hType, Option.any_some]
  case bound => exact fun f => hCount f ▸ hDealt.bound f
  case thrown => exact fun f => hCount f ▸ hDealt.thrown f
  case standing =>
    intro f
    rw [h.countOn_eq, hDealt.ready.countOn_eq, hDealt.fixtures]
    exact List.countP_congr fun id hid => by rw [hDealt.isOf f id hid]; rfl
  case fixtures => exact hDealt.fixtures

variable {b : Blueprint} {w : World}

/-- **No door and no bed is lost.**  Take any row of a load, for a tile on which all items are of
known types, with records that can all be read, none of which brings an item to the tile that runs
out at once.  As many of its records of doors go to doors as the tile has doors, no two of them to
the same one, and only the others are thrown away, whatever the types and the order of the records
and of the doors; the same holds of beds.  Doors, beds and all that does not move on the tile are as
many as before. -/
theorem no_fixture_lost (hw : Reached c b w) (hSettled : c.Settled) (earlier : List TileRow)
    {row : TileRow} {count : UInt32} {start rest : Reader} {rs : List Record}
    (hHead : readHead (Reader.ofOctets row.data) = some ((p, count), start))
    (hRecords : Record.times (Record.decode c) count.toNat start = .ok (rs, rest))
    (hTile : ((w.restoreRows earlier).world.graph.tile? p).isSome)
    (hKnown : ∀ id ∈ (w.restoreRows earlier).world.graph.contents (.tile p),
      ((w.restoreRows earlier).world.typeOf? id).isSome)
    (hLasts : AllLast p rs (w.restoreRows earlier).begun) :
    Matched c p rs (w.restoreRows earlier) (restoreRow (w.restoreRows earlier) row) := by
  have hKeeps : Keeps w (w.restoreRows earlier).world := keeps_restoreRows hw.sound earlier
  generalize w.restoreRows earlier = s at hKeeps hTile hKnown hLasts ⊢
  have hCatalog : s.world.catalog = c := hKeeps.catalog.trans hw.catalog
  have hSound := hKeeps.sound hw.sound
  -- Before the row all fixtures are free and of known types.
  have hReady : Ready c p s := by
    refine ⟨hSound, hCatalog, hSettled, hTile, ?_⟩
    intro id hid
    obtain ⟨t, ht⟩ := Option.isSome_iff_exists.1 (hKnown id (List.mem_of_mem_filter hid))
    obtain ⟨i, hi, hType⟩ := Option.bind_eq_some_iff.1 ht
    exact ⟨i, t, hi, hCatalog ▸ hType⟩
  have hBegun : Ready c p s.begun :=
    ⟨hReady.sound, hReady.catalog, hReady.settled, hReady.tile, hReady.known⟩
  have hFits := Record.forall_of_times (fun _ _ _ => Record.fits_of_decode) count.toNat hRecords
  obtain ⟨s', hEach, hDealt⟩ := dealtAll_placeEach hBegun hFits hLasts
  rw [restoreRow_of_records hSound hTile hHead (by rw [hCatalog]; exact hRecords) hEach]
  exact hReady.matched hDealt

/-! ## §5. Three gates for two doors. -/

/-- Neither doors nor gates move. -/
theorem gateCatalog_settled : gateCatalog.Settled := by
  intro id t hType hMoves
  have hGet : gateCatalog.get? id = if compare 201 id = .eq then some gate
      else if compare 200 id = .eq then some { id := 200, group := .door } else none := by
    show (Catalog.empty.types.insert 200 _ |>.insert 201 gate)[id]? = _
    rw [Std.TreeMap.getElem?_insert, Std.TreeMap.getElem?_insert]
    rfl
  rw [hGet] at hType
  split_ifs at hType <;> obtain rfl := Option.some_inj.1 hType <;> cases hMoves

/-- A house with two doors on one tile. -/
def twoDoors : Blueprint where
  houses := [{ id := 1, name := "", entry := .zero }]
  tiles := [⟨.zero, some 1, [.mk { typeId := 200 } [], .mk { typeId := 200 } []]⟩]

/-- The house, before a row is read. -/
def twoDoorsWorld : World :=
  (ofBlueprint gateCatalog twoDoors).1.toOption.getD {}

/-- A row with a gate, a door, and another gate. -/
def gatesRow : TileRow where
  house := 1
  data := [0, 0, 0, 0, 0, 3, 0, 0, 0] ++ storedGate ++ [200, 0, 0] ++ storedGate

/-- What is read of that row. -/
def gatesRead : List Record × Reader :=
  (Record.times (Record.decode gateCatalog) 3 ⟨9, gatesRow.data.drop 9⟩).toOption.getD
    ([], ⟨0, []⟩)

/-- A gate goes to the first door and the door to the second one; the second gate finds none. -/
theorem no_fixture_lost_gates :
    Reached gateCatalog twoDoors twoDoorsWorld
      ∧ readHead (Reader.ofOctets gatesRow.data) = some ((.zero, 3), ⟨9, gatesRow.data.drop 9⟩)
      ∧ Record.times (Record.decode gateCatalog) 3 ⟨9, gatesRow.data.drop 9⟩
        = .ok (gatesRead.1, gatesRead.2)
      ∧ lots .zero gatesRead.1 (twoDoorsWorld.restoreRows []).begun
        = [.bound 0, .bound 1, .thrownAway]
      ∧ Matched gateCatalog .zero gatesRead.1 (twoDoorsWorld.restoreRows [])
        (restoreRow (twoDoorsWorld.restoreRows []) gatesRow) := by
  -- The world and the records are computed once, and known by name from then on.
  have hBuilds : (ofBlueprint gateCatalog twoDoors).1.toOption.isSome = true := by
    decide +kernel
  have hBuilt : (ofBlueprint gateCatalog twoDoors).1 = .ok twoDoorsWorld := by
    unfold twoDoorsWorld
    exact eq_ok_of_isSome (ofBlueprint gateCatalog twoDoors).1 ({} : World) hBuilds
  have hReached : Reached gateCatalog twoDoors twoDoorsWorld := .drawn hBuilt
  have hHead : readHead (Reader.ofOctets gatesRow.data)
      = some ((.zero, 3), ⟨9, gatesRow.data.drop 9⟩) := by
    decide +kernel
  have hReads : (Record.times (Record.decode gateCatalog) 3
      ⟨9, gatesRow.data.drop 9⟩).toOption.isSome = true := by
    decide +kernel
  have hRecords : Record.times (Record.decode gateCatalog) 3 ⟨9, gatesRow.data.drop 9⟩
      = .ok (gatesRead.1, gatesRead.2) := by
    unfold gatesRead
    exact eq_ok_of_isSome _ ([], ⟨0, []⟩) hReads
  exact ⟨hReached, hHead, hRecords, by decide +kernel,
    no_fixture_lost hReached gateCatalog_settled [] hHead hRecords (by decide +kernel)
      (by decide +kernel) (by decide +kernel)⟩

end Restoring

end World

end Homestead
