/-
  Homestead.Proofs.Blueprint.Housed
  ─────────────────────────────────
  **THE DOORS AND BEDS OF A BLUEPRINT ARE AT HOME.**

  In the world of a blueprint the doors of a house are doors and its beds
  are beds, and every one of them lies on a tile of the house.  Nobody
  sleeps there yet.

  A fixture is registered before it is put on its tile.  So there is a
  moment when one of them lies nowhere, and the invariant names it.

  Main results:
    * `Housed` — doors and beds are where they belong;
    * `housed_ofBlueprint` — worlds of blueprints.
-/
import Homestead.Proofs.Blueprint.Fitted

namespace Homestead

open Drafting

namespace World

/-! ## §1. The invariant. -/

/-- Doors and beds are where they belong, but for one that is still to be put on its tile. -/
structure Housed (w : World) (waiting : Option (ItemId × Position)) : Prop where
  /-- Nobody sleeps anywhere. -/
  awake : ∀ g, w.bedOf? g = none
  /-- A tile that belongs to a house is one of the tiles of the house. -/
  tiles : ∀ p n, w.houseOf? p = some (some n) → ∃ h, w.house? n = some h ∧ p ∈ h.tiles
  /-- Doors are doors, and beds are beds. -/
  kinds : ∀ (f : Fixture) n h d, w.house? n = some h → d ∈ f.ofHouse h →
    ∃ i, w.graph.item? d = some i ∧ f.ofItem i = true
  /-- They lie on tiles of their house. -/
  lie : ∀ (f : Fixture) n h d, w.house? n = some h → d ∈ f.ofHouse h →
    ∃ p ∈ h.tiles, d ∈ w.graph.contents (.tile p) ∨ waiting = some (d, p)

variable {c : Catalog} {w : World} {waiting : Option (ItemId × Position)}

/-- Without houses nothing is amiss. -/
theorem housed_empty (c : Catalog) (name : String) : Housed { catalog := c, name } none where
  awake _ := rfl
  tiles p n hOf := by cases hOf
  kinds f n h d hHouse := by cases hHouse
  lie f n h d hHouse := by cases hHouse

/-- Another graph in which all items are firm, tiles belong to houses that have them, and what lay
on a tile or was to be put there lies there or is to be put there. -/
theorem Housed.withGraph (h : Housed w waiting) {g : Graph} {waiting' : Option (ItemId × Position)}
    (hFirm : w.graph.Advances Item.Firm g)
    (hTiles : ∀ p n, (g.tile? p).map (·.house) = some (some n) →
      ∃ h, w.house? n = some h ∧ p ∈ h.tiles)
    (hLie : ∀ d p, d ∈ w.graph.contents (.tile p) ∨ waiting = some (d, p) →
      d ∈ g.contents (.tile p) ∨ waiting' = some (d, p)) :
    Housed { w with graph := g } waiting' where
  awake := h.awake
  tiles := hTiles
  kinds f n house d hHouse hMem := by
    obtain ⟨i, hi, hKind⟩ := h.kinds f n house d hHouse hMem
    obtain ⟨i', hi', hSame⟩ := hFirm d i hi
    exact ⟨i', hi', (hSame.ofItem_eq f).trans hKind⟩
  lie f n house d hHouse hMem := by
    obtain ⟨p, hp, hHere⟩ := h.lie f n house d hHouse hMem
    exact ⟨p, hp, hLie d p hHere⟩

/-- Another graph with the same tiles in which all items are firm. -/
theorem Housed.withItems (h : Housed w waiting) {g : Graph}
    (hFirm : w.graph.Advances Item.Firm g) (hTiles : g.tiles = w.graph.tiles) :
    Housed { w with graph := g } waiting := by
  refine h.withGraph hFirm ?_ ?_
  · intro p n hOf
    rw [Graph.tile?_eq_of_tiles hTiles] at hOf
    exact h.tiles p n hOf
  · intro d p hHere
    rw [Graph.contents, Graph.tile?_eq_of_tiles hTiles]
    exact hHere

/-- Another house under a number, which has the tiles of the one before it, and perhaps one more. -/
theorem Housed.insert (h : Housed w waiting) {number : UInt32} {house house' : House}
    (hHouse : w.house? number = some house) (hTiles : ∀ p ∈ house.tiles, p ∈ house'.tiles)
    (hKinds : ∀ (f : Fixture), ∀ d ∈ f.ofHouse house',
      ∃ i, w.graph.item? d = some i ∧ f.ofItem i = true)
    (hLie : ∀ (f : Fixture), ∀ d ∈ f.ofHouse house',
      ∃ p ∈ house'.tiles, d ∈ w.graph.contents (.tile p) ∨ waiting = some (d, p)) :
    Housed { w with houses := w.houses.insert number house' } waiting where
  awake := h.awake
  tiles p n hOf := by
    obtain ⟨owner, hOwner, hMem⟩ := h.tiles p n hOf
    rw [house?, house?_insert]
    -- A tile of this house is among the tiles that it keeps.
    split_ifs with hn
    · rw [hn, hHouse, Option.some_inj] at hOwner
      exact ⟨house', rfl, hTiles p (hOwner ▸ hMem)⟩
    · exact ⟨owner, hOwner, hMem⟩
  kinds f n other d hOther hMem := by
    rw [house?, house?_insert] at hOther
    split_ifs at hOther
    · cases hOther
      exact hKinds f d hMem
    · exact h.kinds f n other d hOther hMem
  lie f n other d hOther hMem := by
    rw [house?, house?_insert] at hOther
    split_ifs at hOther
    · cases hOther
      exact hLie f d hMem
    · exact h.lie f n other d hOther hMem

/-! ## §2. Houses and tiles. -/

/-- Entering a house leaves the houses in order. -/
theorem yields_enterHouse_housed (h : Housed w none) (e : HouseEntry) :
    Yields (w.enterHouse e) fun w' => Housed w' none := by
  unfold enterHouse
  split_ifs with hTwice
  · exact yields_bind (P := fun _ => False) (yields_throw _) fun _ h => h.elim
  · have hNone : w.house? e.id = none := by simpa using hTwice
    refine yields_pure ?_
    -- The house is new, so the tiles and fixtures of the others stay theirs.
    have hOther : ∀ {n : UInt32} {house : House}, w.house? n = some house → n ≠ e.id := by
      rintro n house hHouse rfl
      rw [hNone] at hHouse
      cases hHouse
    constructor
    case awake => exact h.awake
    case tiles =>
      intro p n hOf
      obtain ⟨owner, hOwner, hMem⟩ := h.tiles p n hOf
      exact ⟨owner, by rw [house?, house?_insert, if_neg (hOther hOwner)]; exact hOwner, hMem⟩
    case kinds =>
      intro f n house d hHouse hMem
      rw [house?, house?_insert] at hHouse
      split_ifs at hHouse
      · cases hHouse
        cases f <;> exact absurd hMem List.not_mem_nil
      · exact h.kinds f n house d hHouse hMem
    case lie =>
      intro f n house d hHouse hMem
      rw [house?, house?_insert] at hHouse
      split_ifs at hHouse
      · cases hHouse
        cases f <;> exact absurd hMem List.not_mem_nil
      · exact h.lie f n house d hHouse hMem

/-- Claiming a new tile leaves the houses in order. -/
theorem yields_claimTile_housed (hDrawn : Drawn c w) (h : Housed w none) {p : Position}
    (hNew : w.graph.tile? p = some {}) (house : Option UInt32) :
    Yields (w.claimTile p house) fun w' => Housed w' none := by
  unfold claimTile
  cases house with
  | none => exact yields_pure h
  | some number =>
    dsimp only
    cases hHouse : w.house? number with
    | none => exact yields_throw _
    | some house =>
      dsimp only
      rw [hDrawn.updateHouse_addTile hNew hHouse]
      refine yields_pure ?_
      -- The house has one tile more, and its doors and beds lie where they lay.
      have hTaken : Housed { w with
          houses := w.houses.insert number { house with tiles := house.tiles ++ [p] } } none := by
        refine h.insert hHouse (fun q hq => List.mem_append_left _ hq) ?_ ?_
        · intro f d hMem
          exact h.kinds f number house d hHouse (by cases f <;> exact hMem)
        · intro f d hMem
          obtain ⟨q, hq, hHere⟩ := h.lie f number house d hHouse (by cases f <;> exact hMem)
          exact ⟨q, List.mem_append_left _ hq, hHere⟩
      refine hTaken.withGraph ?_ ?_ ?_
      · exact Graph.advances_of_item? Item.Firm.refl fun j i hi => by
          rw [item?_setTileHouse]
          exact hi
      · -- The tile names the house that has just taken it in; the other tiles are as before.
        intro q n hOf
        rw [tile?_setTileHouse] at hOf
        split_ifs at hOf with hq
        · rw [hq, hNew] at hOf
          obtain rfl : number = n := Option.some_inj.1 (Option.some_inj.1 hOf)
          rw [hq, house?, house?_insert, if_pos rfl]
          exact ⟨_, rfl, List.mem_append_right _ (List.mem_singleton_self p)⟩
        · exact hTaken.tiles q n hOf
      · intro d q hHere
        refine hHere.imp_left fun hLies => ?_
        -- The tile gets a house, and keeps its list.
        have hSame : ∀ t : Option Tile, (t.map fun t => ({ t with house := some number } : Tile)).map
            (·.contents) = t.map (·.contents) := by
          intro t
          cases t <;> rfl
        rw [Graph.contents, tile?_setTileHouse]
        split_ifs
        · rw [hSame]
          exact hLies
        · exact hLies

/-! ## §3. Items. -/

/-- Registering an item that is going to be put on a tile of the house. -/
theorem Housed.addFixture (h : Housed w none) {number : UInt32} {p : Position}
    (hOf : w.houseOf? p = some (some number)) (id : ItemId) :
    Housed (w.updateHouse number fun house g => house.addFixture g id) (some (id, p)) := by
  -- The item may wait for the tile already: nothing is said of it yet.
  have hWaits : Housed w (some (id, p)) := by
    refine h.withGraph (Graph.advances_of_item? Item.Firm.refl fun _ _ hi => hi) h.tiles ?_
    exact fun d q hHere => .inl (hHere.resolve_right (by rintro ⟨⟩))
  obtain ⟨house, hHouse, hTile⟩ := h.tiles p number hOf
  -- No fixture, and the house is as before; or it is told its house and listed there.
  rcases addFixture_cases hHouse id with hSame | ⟨f, i, hi, hKind, _, hEq⟩
  · rw [hSame]
    exact hWaits.insert hHouse (fun q hq => hq)
      (fun f d hMem => h.kinds f number house d hHouse hMem)
      fun f d hMem => hWaits.lie f number house d hHouse hMem
  · rw [hEq]
    have hFirm : w.graph.Advances Item.Firm (w.graph.update id (f.told house.id)) :=
      Graph.advances_update Item.Firm.refl id fun i _ => f.firm_told house.id i
    have hTold : Housed { w with graph := w.graph.update id (f.told house.id) } (some (id, p)) :=
      hWaits.withItems hFirm (Graph.tiles_update w.graph id _)
    refine hTold.insert hHouse ?_ ?_ ?_
    · rw [f.tiles_register]
      exact fun q hq => hq
    · intro g d hMem
      rcases Fixture.mem_ofHouse_register.1 hMem with hOld | ⟨rfl, rfl⟩
      · exact hTold.kinds g number house d hHouse hOld
      · obtain ⟨i', hi', hSame⟩ := hFirm d i hi
        exact ⟨i', hi', (hSame.ofItem_eq g).trans hKind⟩
    · intro g d hMem
      rw [f.tiles_register]
      rcases Fixture.mem_ofHouse_register.1 hMem with hOld | ⟨_, rfl⟩
      · exact hTold.lie g number house d hHouse hOld
      · exact ⟨p, hTile, .inr rfl⟩

/-- The item that was waiting is put on its tile. -/
theorem yields_putOn_housed {id : ItemId} {p : Position}
    (h : Housed w waiting) (hWaiting : ∀ d q, waiting = some (d, q) → d = id ∧ q = p) :
    Yields (w.putOn p id) fun w' => Housed w' none := by
  refine yields_putOn fun g hAdd => ?_
  refine h.withGraph ?_ ?_ ?_
  · exact Graph.advances_of_item? Item.Firm.refl fun j i hi => (Graph.item?_add hAdd j).trans hi
  · intro q n hOf
    rw [Graph.house_add hAdd] at hOf
    exact h.tiles q n hOf
  · -- The item that was waiting lies on its tile now, and nothing waits any more.
    intro d q hHere
    left
    rcases hHere with hLies | hWaits
    · exact Graph.mem_contents_add hAdd hLies
    · obtain ⟨rfl, rfl⟩ := hWaiting d q hWaits
      exact Graph.mem_contents_of_add hAdd

/-- Entering a tree leaves the houses in order. -/
theorem yields_enterTree_housed (hDrawn : Drawn c w) (h : Housed w none) {t : ItemTree}
    (ht : t.Drawn c) {p : Position} {house : Option UInt32}
    (hOf : w.houseOf? p = some house) :
    Yields (w.enterTree p house t) fun w' => Housed w' none := by
  have hPlanted := Graph.planted_create hDrawn.consistent ht.1
  -- New items lie nowhere yet, so the houses are as they were.
  have hNew : Housed { w with graph := (w.graph.create t).2 } none := by
    refine h.withItems (Graph.advances_of_item? Item.Firm.refl ?_) hPlanted.tiles
    exact fun j i hi => Graph.item?_planted hDrawn.consistent hPlanted hi
  cases house with
  | none => exact yields_putOn_housed hNew fun d q hNone => by cases hNone
  | some number =>
    have hStill : ({ w with graph := (w.graph.create t).2 } : World).houseOf? p
        = some (some number) := by
      rw [houseOf?, Graph.tile?_eq_of_tiles hPlanted.tiles]
      exact hOf
    refine yields_putOn_housed (hNew.addFixture hStill (w.graph.create t).1) ?_
    rintro d q ⟨⟩
    exact ⟨rfl, rfl⟩

/-- Entering an item leaves the houses in order. -/
theorem yields_enterItem_housed (hDrawn : Drawn c w) (h : Housed w none) {p : Position}
    {house : Option UInt32} (hOf : w.houseOf? p = some house) (e : ItemEntry) :
    Yields (enterItem p house w e) fun w' => Housed w' none := by
  unfold enterItem
  rw [hDrawn.catalog]
  refine yields_bind (yields_build c e) ?_
  intro o hTree
  cases o with
  | none => exact yields_pure h
  | some tree =>
    have hEnter := yields_enterTree_housed hDrawn h (hTree tree rfl) hOf
    -- What moves is left out on the tiles of houses, and entered elsewhere.
    cases house with
    | none => exact hEnter
    | some number =>
      dsimp only
      split_ifs
      · refine yields_bind yields_any fun _ _ => yields_bind yields_any fun _ _ => ?_
        exact yields_pure h
      · exact hEnter

/-- Entering a tile leaves the houses in order. -/
theorem yields_enterTile_housed (hDrawn : Drawn c w) (h : Housed w none) (e : TileEntry) :
    Yields (w.enterTile e) fun w' => Housed w' none := by
  unfold enterTile
  split_ifs with hTwice
  · exact yields_bind (P := fun _ => False) (yields_throw _) fun _ h => h.elim
  · have hNone : w.graph.tile? e.position = none := by simpa using hTwice
    obtain ⟨hNew, hTile⟩ := hDrawn.ensureTile hNone
    have hEmpty : Housed { w with graph := w.graph.ensureTile e.position } none := by
      refine h.withGraph ?_ ?_ ?_
      · exact Graph.advances_of_item? Item.Firm.refl fun j i hi => by
          rw [Graph.item?_ensureTile, hi]
      · -- The new tile belongs to nobody yet.
        intro q n hOf
        rw [Graph.tile?_ensureTile hNone] at hOf
        split_ifs at hOf
        · cases hOf
        · exact h.tiles q n hOf
      · intro d q hHere
        rw [Graph.contents_ensureTile]
        exact hHere
    refine yields_bind yields_any fun _ _ => ?_
    refine yields_bind ((yields_claimTile hNew hTile e.house).and
      (yields_claimTile_housed hNew hEmpty hTile e.house)) ?_
    intro w' hw'
    -- Both invariants go along the entries, because an entry is added to a drawn world only.
    refine (yields_foldlM (P := fun w => (Drawn c w ∧ w.houseOf? e.position = some e.house)
      ∧ Housed w none) ?_ e.items hw').imp fun _ hDone => hDone.2
    intro w'' entry hw''
    exact (yields_enterItem entry hw''.1).and
      (yields_enterItem_housed hw''.1.1 hw''.2 hw''.1.2 entry)

/-- **The doors and beds of a blueprint are at home.** -/
theorem housed_ofBlueprint {b : Blueprint} (h : (ofBlueprint c b).1 = .ok w) : Housed w none := by
  have hBoth : Drawn c w ∧ Housed w none := by
    refine ofBlueprint_induction (P := fun w => Drawn c w ∧ Housed w none)
      ⟨drawn_empty c b.name, housed_empty c b.name⟩ ?_ ?_ h
    · exact fun w e hw => (yields_enterHouse hw.1 e).and (yields_enterHouse_housed hw.2 e)
    · exact fun w e hw => (yields_enterTile hw.1 e).and (yields_enterTile_housed hw.1 hw.2 e)
  exact hBoth.2

end World

end Homestead
