/-
  Homestead.Proofs.World.Lots
  ───────────────────────────
  **WHAT A RECORD DOES TO THE FIXTURES OF ITS TILE.**

  A record is let go because nobody knows its type, or it is built anew and
  put behind what lies on the tile, or it goes to an item of the map, or it
  is thrown away because no such item is left.  Whichever it is, the items
  on the tile that do not move are the same ones afterwards, in the same
  order; the one that the record goes to has its type, and the others are
  of the types that they were of.

  Nothing is said about an item whose time runs out as soon as it comes
  back; it may become anything that its type decays to.  What becomes of
  the things in it does not count, since none of them lies on a tile.

  Main results:
    * `tiles_register` — an item that lasts is registered where it lies;
    * `joined_placeMoveable`, `renamed_place` — what comes to the tile, and
      what goes to an item of the map;
    * `dealt_place` — what one record does to the fixtures.
-/
import Homestead.Proofs.Graph.Handling
import Homestead.Proofs.World.BadRecord
import Homestead.Proofs.World.Bound

open Homestead.Stream

namespace Homestead

/-- The item lies on no tile itself. -/
def Graph.OffTiles (g : Graph) (id : ItemId) : Prop :=
  ∀ p, id ∉ g.contents (.tile p)

/-- What lies in an item does not lie on a tile. -/
theorem Graph.Consistent.offTiles_of_lies {g : Graph} (hg : g.Consistent) {inner outer : ItemId}
    (hLies : g.Lies inner outer) : g.OffTiles inner := by
  intro p hMem
  cases hg.holder_unique hMem hLies

/-- Whether an item lies on a tile is told by the tiles. -/
theorem Graph.OffTiles.of_tiles {g g' : Graph} {id : ItemId} (h : g.OffTiles id)
    (hTiles : g'.tiles = g.tiles) : g'.OffTiles id := by
  intro p
  rw [Graph.contents, Graph.tile?_eq_of_tiles hTiles]
  exact h p

namespace World

/-! ## §1. An item is registered where it lies. -/

section Tiles

variable {w : World} {id : ItemId}

/-- What lies on no tile is taken out of no tile. -/
theorem tiles_vanish (h : w.graph.OffTiles id) : (w.vanish id).graph.tiles = w.graph.tiles := by
  rw [vanish_eq]
  split
  next former g hDetach =>
    rcases (Graph.detach_eq_ok hDetach).2 with ⟨_, rfl⟩ | ⟨holder, hRemove⟩
    · exact Graph.tiles_setHolder _ _ _
    · obtain ⟨hMem, rfl⟩ := Graph.remove_eq_ok hRemove
      cases holder with
      -- The holder is no tile by assumption, so only the list of a container is written.
      | tile p => exact absurd hMem (h p)
      | item container => exact Graph.tiles_relist_item container _ id none
  next => rfl

/-- Listing an item writes no tile. -/
theorem tiles_enlist (w : World) (id : ItemId) : (w.enlist id).graph.tiles = w.graph.tiles :=
  Graph.tiles_update w.graph id _

/-- An item that lies on no tile comes to its end without a change of the tiles: it goes from
another item, or becomes another where it is. -/
theorem tiles_finishDecay (h : w.graph.OffTiles id) :
    (w.finishDecay id).graph.tiles = w.graph.tiles := by
  obtain ⟨-, hGone⟩ | ⟨target, -, hEnds⟩ := w.finishDecay_cases id
  · rw [hGone]
    exact tiles_vanish h
  · -- Even if it spills what it held, that lies on no tile afterwards.
    have hBecame : ((w.retype id target).wake id).graph.tiles = w.graph.tiles := by
      rw [graph_wake]
      exact Graph.tiles_retype w.catalog id target
    obtain hRests | ⟨-, hAgain⟩ := hEnds
    · rw [hRests, hBecame]
    · rw [hAgain, tiles_enlist, hBecame]

/-- The time of an item that lies on no tile starts without a change of the tiles. -/
theorem tiles_startDecay (h : w.graph.OffTiles id) :
    (w.startDecay id).graph.tiles = w.graph.tiles := by
  obtain hSame | ⟨-, hOver | hListed⟩ := w.startDecay_cases id
  · rw [hSame]
  · rw [hOver, tiles_finishDecay h]
  · rw [hListed, tiles_enlist]

/-- Registering items that lie on no tile leaves the tiles alone, if that is so for each one. -/
theorem tiles_registerEach {levels : Nat}
    (hOne : ∀ (w : World) (id : ItemId), w.Sound → w.graph.OffTiles id →
      (registerWithin levels w id).graph.tiles = w.graph.tiles)
    (ids : List ItemId) {w : World} (hw : w.Sound) (hOff : ∀ id ∈ ids, w.graph.OffTiles id) :
    (ids.foldl (registerWithin levels) w).graph.tiles = w.graph.tiles := by
  induction ids generalizing w with
  | nil => rfl
  | cons id ids ih =>
    obtain ⟨hFirst, hRest⟩ := List.forall_mem_cons.1 hOff
    have hHere := hOne w id hw hFirst
    rw [List.foldl_cons, ih ((keeps_registerWithin levels w id).sound hw)
      fun other hMem => (hRest other hMem).of_tiles hHere, hHere]

/-- Only the item itself may lie on a tile; whether that changes depends on the start of
its time. -/
theorem tiles_registerWithin_succ {levels : Nat}
    (hOne : ∀ (w : World) (id : ItemId), w.Sound → w.graph.OffTiles id →
      (registerWithin levels w id).graph.tiles = w.graph.tiles) (hw : w.Sound)
    (hStart : ∀ sleeper, ((w.setSleeper id sleeper).startDecay id).graph.tiles = w.graph.tiles) :
    (registerWithin (levels + 1) w id).graph.tiles = w.graph.tiles := by
  rw [registerWithin]
  generalize ((w.graph.item? id).map (·.variant.sleeper)).getD 0 = sleeper
  have hSound := ((keeps_setSleeper w id sleeper).trans (keeps_startDecay _ id)).sound hw
  rw [tiles_registerEach hOne _ hSound
    fun child hMem => hSound.consistent.offTiles_of_lies hMem, hStart]

/-- An item that lies on no tile is registered without a change of the tiles, and so is all that
lies in it. -/
theorem tiles_registerWithin (levels : Nat) : ∀ (w : World) (id : ItemId), w.Sound →
    w.graph.OffTiles id → (registerWithin levels w id).graph.tiles = w.graph.tiles := by
  induction levels with
  | zero => exact fun _ _ _ _ => rfl
  | succ levels ih =>
    intro w id hw h
    refine tiles_registerWithin_succ ih hw ?_
    intro sleeper
    rw [tiles_startDecay (by rw [graph_setSleeper]; exact h), graph_setSleeper]

/-- **An item that does not run out is registered where it lies**, and so is all that lies on tiles,
whatever becomes of what the item holds. -/
theorem tiles_register (hw : w.Sound) {i : Item} (hi : w.graph.item? id = some i)
    (hLasts : ¬ i.RunsOut w.catalog) : (w.register id).graph.tiles = w.graph.tiles := by
  unfold register
  cases w.graph.size with
  | zero => rfl
  | succ levels =>
    refine tiles_registerWithin_succ (tiles_registerWithin levels) hw ?_
    intro sleeper
    unfold startDecay
    rw [mayStart_eq, graph_setSleeper, catalog_setSleeper, hi, Option.any_some]
    split
    · rw [graph_setSleeper]
    next hMay =>
      -- It has time left, so it is put on the list of what decays.
      rw [Bool.not_eq_true, Bool.not_eq_false'] at hMay
      have hHere : (w.setSleeper id sleeper).graph.item? id = some i := by
        rw [graph_setSleeper, hi]
      rw [durationOf_of_item? hHere, if_neg fun hOver => hLasts ⟨hMay, hOver⟩, tiles_enlist,
        graph_setSleeper]

/-- An item on a tile has been registered: the tiles are as before, its time is started, and what
else lies on tiles is as before. -/
structure Settles (w w' : World) (id : ItemId) (i : Item) : Prop where
  /-- The tiles are as before. -/
  tiles : w'.graph.tiles = w.graph.tiles
  /-- The item is the same but for the state of its decay. -/
  typeId? : w'.graph.typeId? id = some i.typeId
  /-- The others are the same. -/
  others : ∀ q, ∀ other ∈ w.graph.contents (.tile q), other ≠ id →
    w'.graph.item? other = w.graph.item? other

/-- An item on a tile that does not run out at once settles when it is registered. -/
theorem settles_register (hw : w.Sound) {i : Item} (hi : w.graph.item? id = some i)
    (hLasts : ¬ i.RunsOut w.catalog) {p : Position} (hMem : id ∈ w.graph.contents (.tile p)) :
    Settles w (w.register id) id i where
  tiles := tiles_register hw hi hLasts
  typeId? := by
    rw [Graph.typeId?, item?_register hw.consistent hi, Option.map_some,
      (Item.alike_started hLasts).typeId]
  others q other hOther hne :=
    item?_registerWithin _ fun hReach =>
      hne (hw.consistent.eq_of_reach hOther hMem .refl hReach)

/-- The tiles hold what they held when an item has settled. -/
theorem Settles.contents {w' : World} {i : Item} (h : Settles w w' id i) (q : Position) :
    w'.graph.contents (.tile q) = w.graph.contents (.tile q) := by
  rw [Graph.contents, Graph.contents, Graph.tile?_eq_of_tiles h.tiles]

end Tiles

/-! ## §2. What becomes of a record. -/

/-- What becomes of a record. -/
inductive Lot where
  /-- Its type is not known, and it is let go. -/
  | unknown
  /-- It is built anew. -/
  | anew
  /-- It goes to an item of the map. -/
  | bound (id : ItemId)
  /-- No item of the map is left for it. -/
  | thrownAway
  deriving DecidableEq

/-- The item of the map that a record goes to. -/
def Lot.fixture? : Lot → Option ItemId
  | .bound id => some id
  | _ => none

/-- The fixtures that records go to, the first record first. -/
theorem Lot.filterMap_fixture?_cons (l : Lot) (ls : List Lot) :
    (l :: ls).filterMap Lot.fixture? = l.fixture?.toList ++ ls.filterMap Lot.fixture? := by
  cases l <;> rfl

namespace Restoring

/-- What becomes of a record of a tile. -/
def lot (p : Position) (r : Record) (s : Restoring) : Lot :=
  match moves? s.world.catalog r with
  | none => .unknown
  | some true => .anew
  | some false =>
    match s.world.fixture? p s.claimed r.typeId with
    | some id => .bound id
    | none => .thrownAway

/-- What becomes of records that are brought back one after another. -/
def lots (p : Position) : List Record → Restoring → List Lot
  | [], _ => []
  | r :: rs, s => s.lot p r :: lots p rs (place p r s).2

/-- The item that a record puts on its tile or goes to, as it is when its time is started. -/
def arrival? (p : Position) (r : Record) (s : Restoring) : Option Item :=
  match s.lot p r with
  | .anew => r.newItem? s.world.catalog
  | .bound id => (s.world.graph.item? id).map (·.bound s.world.catalog r)
  | _ => none

/-- None of the items that records put on their tile or go to runs out at once. -/
def AllLast (p : Position) : List Record → Restoring → Prop
  | [], _ => True
  | r :: rs, s => (∀ i ∈ s.arrival? p r, ¬ i.RunsOut s.world.catalog)
    ∧ AllLast p rs (place p r s).2

instance decidableAllLast (p : Position) : ∀ (rs : List Record) (s : Restoring),
    Decidable (AllLast p rs s)
  | [], _ => .isTrue trivial
  | r :: rs, s =>
    have := decidableAllLast p rs (place p r s).2
    inferInstanceAs (Decidable (_ ∧ _))

variable {c : Catalog} {s s' : Restoring} {p : Position} {r : Record} {id : ItemId}

/-- A record has been brought back: what that does to the items on the tile that do not move, and
to the report. -/
structure Dealt (p : Position) (r : Record) (s s' : Restoring) : Prop where
  /-- The world is kept. -/
  keeps : Keeps s.world s'.world
  /-- The same items do not move, in the same order. -/
  fixtures : s'.world.graph.fixtures s.world.catalog p = s.world.graph.fixtures s.world.catalog p
  /-- The one that the record goes to gets its type, and the others keep theirs. -/
  typeId? : ∀ id ∈ s.world.graph.fixtures s.world.catalog p, s'.world.graph.typeId? id
    = if s.lot p r = .bound id then some r.typeId else s.world.graph.typeId? id
  /-- It has been given away. -/
  claimed : s'.claimed = s.claimed ++ (s.lot p r).fixture?.toList
  /-- It is counted. -/
  matched : s'.report.matched = s.report.matched + (s.lot p r).fixture?.toList.length
  /-- So is a record that is thrown away. -/
  throwaway : s'.report.throwaway
    = s.report.throwaway + if s.lot p r = .thrownAway then 1 else 0
  /-- The row has not failed. -/
  failed : s'.report.failed = s.report.failed

/-- A record that does not move is bound to the first free fixture of its type. -/
theorem lot_of_fixture (hMoves : moves? s.world.catalog r = some false)
    (hFixture : s.world.fixture? p s.claimed r.typeId = some id) : s.lot p r = .bound id := by
  unfold lot
  rw [hMoves]
  dsimp only
  rw [hFixture]

/-- A record that does not move is thrown away where no fixture of its type is free. -/
theorem lot_of_no_fixture (hMoves : moves? s.world.catalog r = some false)
    (hFixture : s.world.fixture? p s.claimed r.typeId = none) : s.lot p r = .thrownAway := by
  unfold lot
  rw [hMoves]
  dsimp only
  rw [hFixture]

/-- A record is bound exactly if it does not move and a fixture is free. -/
theorem lot_eq_bound_iff : s.lot p r = .bound id
    ↔ moves? s.world.catalog r = some false
      ∧ s.world.fixture? p s.claimed r.typeId = some id := by
  constructor
  · intro h
    unfold lot at h
    split at h
    -- A record of no known type, or one that moves, is never bound.
    next => cases h
    next => cases h
    next hMoves =>
      split at h
      next hFixture => exact ⟨hMoves, hFixture.trans (congrArg some (Lot.bound.inj h))⟩
      next => cases h
  · rintro ⟨hMoves, hFixture⟩
    exact lot_of_fixture hMoves hFixture

/-- A record is thrown away for want of a fixture only. -/
theorem fixture?_of_lot_eq_thrownAway (h : s.lot p r = .thrownAway) :
    s.world.fixture? p s.claimed r.typeId = none := by
  unfold lot at h
  split at h
  next => cases h
  next => cases h
  next =>
    split at h
    next => cases h
    next hNone => exact hNone

/-- Records without a known type, and those that are thrown away, do nothing to the tile. -/
theorem dealt_of_graph (hPlaced : Placed s s') (hGraph : s'.world.graph = s.world.graph)
    (hLot : (s.lot p r).fixture? = none) (hClaimed : s'.claimed = s.claimed)
    (hMatched : s'.report.matched = s.report.matched)
    (hThrown : s'.report.throwaway
      = s.report.throwaway + if s.lot p r = .thrownAway then 1 else 0) : Dealt p r s s' where
  keeps := hPlaced.keeps
  fixtures := by rw [hGraph]
  typeId? id _ := by
    rw [hGraph, if_neg]
    -- A record that is bound has a fixture, and this one has none.
    intro hBound
    rw [hBound] at hLot
    cases hLot
  claimed := by rw [hLot, hClaimed, Option.toList_none, List.append_nil]
  matched := by rw [hLot, hMatched]; rfl
  throwaway := hThrown
  failed := hPlaced.failed

/-! ## §3. What is built anew. -/

/-- Another item lies behind those that lay on the tile. -/
structure Joined (p : Position) (typeId : TypeId) (g g' : Graph) : Prop where
  /-- It lies behind the others, and it is of the type. -/
  last : ∃ id, g'.contents (.tile p) = g.contents (.tile p) ++ [id]
    ∧ g'.typeId? id = some typeId
  /-- The others are the same. -/
  others : ∀ other ∈ g.contents (.tile p), g'.item? other = g.item? other

/-- Another item that moves is no fixture. -/
theorem Joined.fixtures {g g' : Graph} {typeId : TypeId} {t : ItemType}
    (h : Joined p typeId g g') (hType : c.get? typeId = some t) (hMoves : t.moveable = true) :
    g'.fixtures c p = g.fixtures c p := by
  obtain ⟨id, hList, hNew⟩ := h.last
  have hLast : g'.moves c id = true := by
    rw [Graph.moves, hNew, Option.any_some, hType]
    exact hMoves
  rw [Graph.fixtures, hList, List.filter_append, List.filter_cons_of_neg (by rw [hLast]; decide),
    List.filter_nil, List.append_nil]
  refine List.filter_congr ?_
  intro other hMem
  rw [Graph.moves_of_typeId? (Graph.typeId?_of_item? (h.others other hMem))]

/-- **What moves is put behind what lies on its tile.** -/
theorem joined_placeMoveable (hs : s.world.Sound) (hTile : (s.world.graph.tile? p).isSome)
    {t : ItemTree} {tally : Tally} (hBuilt : r.build s.world.catalog = (.ok (some t), tally))
    (hLasts : ∀ i ∈ r.newItem? s.world.catalog, ¬ i.RunsOut s.world.catalog) :
    Joined p r.typeId s.world.graph (placeMoveable p r s).2.world.graph := by
  have hTree : (r.build s.world.catalog).1 = .ok (some t) := by rw [hBuilt]
  have hHollow := Record.hollow_of_build r t hTree
  have hList := hs.consistent.contents_onTile hHollow hTile
  have hPut := (keeps_onTile hs hTile hTree).sound hs
  rw [placeMoveable_eq hs hTile hBuilt]
  generalize hId : (s.world.graph.create t).1 = id at hList ⊢
  -- The new item is the one that the record names.
  obtain ⟨item, hItem, hNew⟩ : ∃ item, (s.world.graph.onTile p t).item? id = some item
      ∧ r.newItem? s.world.catalog = some item := by
    obtain ⟨typeId, known, us, children⟩ := r
    obtain ⟨item, trees, hNew, rfl, _⟩ := Record.build_eq_ok hTree
    obtain ⟨n, hn, hItem, _⟩ := hs.consistent.shows_onTile hHollow p
    exact ⟨item, Graph.item?_eq_some.2 ⟨n, hId ▸ hn, hItem⟩, hNew⟩
  have hSettles := settles_register hPut hItem (hLasts item hNew) (p := p)
    (by rw [hList]; exact List.mem_append_right _ List.mem_cons_self)
  constructor
  case last =>
    refine ⟨id, (hSettles.contents p).trans hList, ?_⟩
    rw [← Record.typeId_newItem? hNew]
    exact hSettles.typeId?
  case others =>
    intro other hMem
    -- The new item stands last, and once, so the others are the old ones.
    have hne : other ≠ id := by
      rintro rfl
      have hNodup := hPut.consistent.nodup (.tile p)
      rw [hList, List.nodup_append] at hNodup
      exact hNodup.2.2 other hMem other List.mem_cons_self rfl
    have hAlone : s.world.graph.LeftAlone (s.world.graph.onTile p t) other := by
      -- The tree is planted apart from all that lies on the tile.
      have hConfined := hs.consistent.confined_onTile hHollow p
        (hs.consistent.region_around fun _ => False)
      exact hConfined.leftAlone fun _ hReach =>
        hs.consistent.apart hMem (fun _ hNone => hNone.elim) hReach
    exact (hSettles.others p other (by rw [hList]; exact List.mem_append_left _ hMem) hne).trans
      hAlone.item?_eq

/-- A record that moves becomes a new item and leaves the fixtures of the tile alone. -/
theorem dealt_of_moves (hs : s.world.Sound) (hTile : (s.world.graph.tile? p).isSome)
    (hFits : r.Fits s.world.catalog) (hMoves : moves? s.world.catalog r = some true)
    (hLasts : ∀ i ∈ s.arrival? p r, ¬ i.RunsOut s.world.catalog) :
    Dealt p r s (placeMoveable p r s).2 := by
  have hLot : s.lot p r = .anew := by
    unfold lot
    rw [hMoves]
  have hLasts : ∀ i ∈ r.newItem? s.world.catalog, ¬ i.RunsOut s.world.catalog := by
    unfold arrival? at hLasts
    rwa [hLot] at hLasts
  obtain ⟨ty, hType, hMoveable⟩ := type_of_moves? hMoves
  obtain ⟨s', hPlace, hPlaced⟩ := placeMoveable_of_fits hs hTile hFits
  obtain ⟨o, tally, hBuilt⟩ := Record.build_of_fits r hFits
  -- A record of a type that is not usable makes nothing, and the tile is as before.
  cases o with
  | none =>
    unfold placeMoveable at hPlace ⊢
    rw [hBuilt] at hPlace ⊢
    obtain rfl := (Prod.mk.inj hPlace).2
    exact dealt_of_graph hPlaced rfl (by rw [hLot]; rfl) rfl rfl (by rw [hLot]; rfl)
  | some t =>
    have hJoined := joined_placeMoveable hs hTile hBuilt hLasts
    rw [placeMoveable_eq hs hTile hBuilt] at hPlace hJoined ⊢
    obtain rfl := (Prod.mk.inj hPlace).2
    constructor
    case keeps => exact hPlaced.keeps
    case fixtures => exact hJoined.fixtures hType hMoveable
    case typeId? =>
      intro id hid
      rw [hLot, if_neg (by simp)]
      exact Graph.typeId?_of_item? (hJoined.others id (List.mem_of_mem_filter hid))
    case claimed => rw [hLot]; exact (List.append_nil _).symm
    case matched => rw [hLot]; rfl
    case throwaway => rw [hLot]; rfl
    case failed => rfl

/-! ## §4. What goes to an item of the map. -/

/-- **What does not move goes to what does not move**, since doors and beds do not. -/
theorem mem_fixtures (hs : s.world.Sound) (hSettled : s.world.catalog.Settled)
    (hMoves : moves? s.world.catalog r = some false)
    (hFixture : s.world.fixture? p s.claimed r.typeId = some id) :
    id ∈ s.world.graph.fixtures s.world.catalog p := by
  obtain ⟨hMem, _, i, hi, hBound⟩ := fixture?_eq_some hFixture
  obtain ⟨t, hType, hStays⟩ := type_of_moves? hMoves
  refine List.mem_filter.2 ⟨hMem, ?_⟩
  rw [Bool.not_eq_true', Bool.eq_false_iff]
  intro hMoving
  rw [Graph.moves, Graph.typeId?, hi, Option.map_some, Option.any_some] at hMoving
  cases hOwn : s.world.catalog.get? i.typeId with
  | none =>
    rw [hOwn] at hMoving
    cases hMoving
  | some ty =>
    rw [hOwn] at hMoving
    have hTyped := hs.typed id i hi
    -- The item is of the type of the record, or a door or a bed, which do not move.
    rcases hBound with hSame | ⟨_, _, ⟨_, hDoor⟩ | ⟨_, hBed⟩⟩
    · rw [hSame, hType] at hOwn
      obtain rfl := Option.some_inj.1 hOwn
      rw [Option.map_some, Option.getD_some, hStays] at hMoving
      cases hMoving
    · rw [hTyped.isDoor_eq hOwn, (hSettled _ _ hOwn hMoving).1] at hDoor
      cases hDoor
    · rw [hTyped.isBed_eq hOwn, (hSettled _ _ hOwn hMoving).2] at hBed
      cases hBed

/-- One item on the tile has another type now, and the others are the same. -/
structure Renamed (p : Position) (id : ItemId) (typeId : TypeId) (g g' : Graph) : Prop where
  /-- The same items lie on the tile. -/
  contents : g'.contents (.tile p) = g.contents (.tile p)
  /-- The one has the type. -/
  typeId? : g'.typeId? id = some typeId
  /-- The others are the same. -/
  others : ∀ other ∈ g.contents (.tile p), other ≠ id → g'.item? other = g.item? other

/-- What does not move still does not, if the other type does not either. -/
theorem Renamed.fixtures {g g' : Graph} {typeId : TypeId} {t : ItemType}
    (h : Renamed p id typeId g g') (hid : id ∈ g.fixtures c p) (hType : c.get? typeId = some t)
    (hStays : t.moveable = false) : g'.fixtures c p = g.fixtures c p := by
  rw [Graph.fixtures, h.contents]
  refine List.filter_congr ?_
  intro other hMem
  -- Only the item of the new type has to be looked at; the others have the type that they had.
  by_cases hOther : other = id
  · have hAfter : g'.moves c id = false := by
      rw [Graph.moves, h.typeId?, Option.any_some, hType]
      exact hStays
    rw [hOther, hAfter, (List.mem_filter.1 hid).2]
    rfl
  · rw [Graph.moves_of_typeId? (Graph.typeId?_of_item? (h.others other hMem hOther))]

/-- **A fixture gets the type of the record that goes to it.** -/
theorem renamed_place (hs : s.world.Sound) (hFits : r.Fits s.world.catalog)
    (hMoves : moves? s.world.catalog r = some false)
    (hFixture : s.world.fixture? p s.claimed r.typeId = some id)
    (hLasts : ∀ i ∈ s.arrival? p r, ¬ i.RunsOut s.world.catalog) :
    ∃ tally w, place p r s = (.ok (), ({ s with
        world := w
        report := { s.report with matched := s.report.matched + 1 }
        claimed := s.claimed ++ [id] }).count tally)
      ∧ Renamed p id r.typeId s.world.graph w.graph := by
  obtain ⟨hMem, _, i, hi, _⟩ := fixture?_eq_some hFixture
  obtain ⟨t, hType, _⟩ := type_of_moves? hMoves
  obtain ⟨tally, w, hPlace, hReadied⟩ := place_fixture hs hFits hMoves hFixture hi
  obtain ⟨j, hj, hMatches⟩ := hReadied.matches hType
  have hContents := hs.consistent.contents_of_confined hReadied.confined p
  -- The item that is readied does not run out, since what its record makes of it does not.
  have hLastsHere : ¬ j.RunsOut w.catalog := by
    rw [hReadied.keeps.catalog, hMatches.runsOut]
    refine hLasts _ ?_
    rw [arrival?, lot_of_fixture hMoves hFixture]
    dsimp only
    rw [hi]
    rfl
  have hSettles := settles_register (hReadied.keeps.sound hs) hj hLastsHere (hContents ▸ hMem)
  refine ⟨tally, w.register id, hPlace, (hSettles.contents p).trans hContents, ?_, ?_⟩
  · rw [hSettles.typeId?, hMatches.typeId, Item.typeId_bound]
  · intro other hOther hne
    have hAlone := hs.consistent.leftAlone_of_confined hReadied.confined hMem hOther hne
    exact (hSettles.others p other (hContents ▸ hOther) hne).trans hAlone.item?_eq

/-! ## §5. Any record. -/

/-- **What one record does to the fixtures of its tile.** -/
theorem dealt_place (hs : s.world.Sound) (hSettled : s.world.catalog.Settled)
    (hTile : (s.world.graph.tile? p).isSome) (hFits : r.Fits s.world.catalog)
    (hLasts : ∀ i ∈ s.arrival? p r, ¬ i.RunsOut s.world.catalog) :
    ∃ s', place p r s = (.ok (), s') ∧ Dealt p r s s' := by
  obtain ⟨s', hPlace, hPlaced⟩ := place_of_fits hs hTile hFits
  refine ⟨s', hPlace, ?_⟩
  -- One case for each of the four ways that a record can go.
  cases hMoves : moves? s.world.catalog r with
  | none =>
    have hLot : s.lot p r = .unknown := by
      unfold lot
      rw [hMoves]
    rw [place_of_unknown hMoves] at hPlace
    obtain rfl := (Prod.mk.inj hPlace).2
    exact dealt_of_graph hPlaced rfl (by rw [hLot]; rfl) rfl rfl (by rw [hLot]; rfl)
  | some moves =>
    cases moves with
    | true =>
      rw [place_of_moves hMoves] at hPlace
      have hDealt := dealt_of_moves hs hTile hFits hMoves hLasts
      rwa [hPlace] at hDealt
    | false =>
      cases hFixture : s.world.fixture? p s.claimed r.typeId with
      | none =>
        have hLot := lot_of_no_fixture hMoves hFixture
        obtain ⟨hGraph, _, hClaimed⟩ := graph_throwAway r s
        have hReport := report_throwAway r s
        rw [place_of_no_fixture hMoves hFixture] at hPlace
        rw [hPlace] at hGraph hClaimed hReport
        -- Let go with its contents or without, it is one record that is thrown away.
        have hLost : (lost s.world.catalog r).matched = 0
            ∧ (lost s.world.catalog r).throwaway = 1 := by
          unfold lost
          split
          · exact ⟨rfl, rfl⟩
          · exact ⟨rfl, rfl⟩
        refine dealt_of_graph hPlaced hGraph (by rw [hLot]; rfl) hClaimed ?_ ?_
        · rw [hReport]
          exact congrArg (s.report.matched + ·) hLost.1
        · rw [hReport, hLot, if_pos rfl]
          exact congrArg (s.report.throwaway + ·) hLost.2
      | some id =>
        have hLot := lot_of_fixture hMoves hFixture
        obtain ⟨t, hType, hStays⟩ := type_of_moves? hMoves
        obtain ⟨tally, w, hBound, hRenamed⟩ := renamed_place hs hFits hMoves hFixture hLasts
        rw [hBound] at hPlace
        obtain rfl := (Prod.mk.inj hPlace).2
        have hid := mem_fixtures hs hSettled hMoves hFixture
        -- The fixture that is found takes on the type of the record, and stays a fixture for that.
        constructor
        case keeps => exact hPlaced.keeps
        case fixtures => exact hRenamed.fixtures hid hType hStays
        case typeId? =>
          intro other hOther
          rw [hLot]
          by_cases hSame : other = id
          · rw [hSame, if_pos rfl]
            exact hRenamed.typeId?
          · rw [if_neg (by simpa using fun h => hSame h.symm)]
            exact Graph.typeId?_of_item?
              (hRenamed.others other (List.mem_of_mem_filter hOther) hSame)
        case claimed => rw [hLot]; rfl
        case matched => rw [hLot]; rfl
        case throwaway => rw [hLot]; rfl
        case failed => rfl

end Restoring

end World

end Homestead
