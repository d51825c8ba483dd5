/-
  Homestead.Proofs.Blueprint.Drawn
  ────────────────────────────────
  **WHAT THE WORLD OF A BLUEPRINT IS LIKE.**

  A world that a blueprint gives is sound, all its items have time left,
  every tile of a house is there and belongs to that house alone, and what
  lies on it does not move.

  Main results:
    * `Drawn` — all of this;
    * `ofBlueprint_induction` — what every house and every tile keeps, the
      world of a blueprint has;
    * `drawn_ofBlueprint` — the world of a blueprint is like that;
    * `Drawn.nodup_houseTiles` — no tile belongs to two houses.
-/
import Homestead.Proofs.Blueprint.Items
import Homestead.Proofs.House.Fixtures
import Homestead.Proofs.World.Rows

namespace Homestead

open Drafting

/-- The catalog does not say of the item's type that it moves. -/
def Item.Stays (c : Catalog) (i : Item) : Prop :=
  ∀ t, c.get? i.typeId = some t → t.moveable = false

namespace World

/-! ## §1. The invariant. -/

/-- A world as a blueprint gives it. -/
structure Drawn (c : Catalog) (w : World) : Prop where
  /-- The catalog is the one of the blueprint. -/
  catalog : w.catalog = c
  /-- Links and lists agree. -/
  consistent : w.graph.Consistent
  /-- Items are as the map gives them. -/
  items : w.graph.AllItems (Item.Drawn c)
  /-- Houses stand under their numbers, and their tiles are there, each once. -/
  houses : ∀ id h, w.house? id = some h → h.id = id ∧ h.tiles.Nodup
    ∧ ∀ p ∈ h.tiles, ∃ t, w.graph.tile? p = some t ∧ t.house = some id
  /-- On tiles of houses lies nothing that moves. -/
  fixtures : ∀ p t, w.graph.tile? p = some t → t.house.isSome →
    ∀ id ∈ t.contents, ∀ i, w.graph.item? id = some i → i.Stays c

variable {c : Catalog} {w : World}

/-- A world as the map gives it is sound. -/
theorem Drawn.sound (h : Drawn c w) : w.Sound where
  consistent := h.consistent
  typed id i hi := by
    rw [h.catalog]
    exact (h.items id i hi).typed

/-- Another graph in which the tiles belong to the same houses. -/
theorem Drawn.withGraph (h : Drawn c w) {g : Graph} (hg : g.Consistent)
    (hItems : g.AllItems (Item.Drawn c))
    (hTiles : ∀ p, (g.tile? p).map (·.house) = (w.graph.tile? p).map (·.house))
    (hFixtures : ∀ p t, g.tile? p = some t → t.house.isSome →
      ∀ id ∈ t.contents, ∀ i, g.item? id = some i → i.Stays c) :
    Drawn c { w with graph := g } where
  catalog := h.catalog
  consistent := hg
  items := hItems
  houses id house hHouse := by
    obtain ⟨hId, hNodup, hAll⟩ := h.houses id house hHouse
    refine ⟨hId, hNodup, ?_⟩
    intro p hp
    obtain ⟨t, ht, hOf⟩ := hAll p hp
    -- The tile is still there, and still of this house.
    have hSame := hTiles p
    rw [ht, Option.map_some] at hSame
    obtain ⟨t', ht', hEq⟩ := Option.map_eq_some_iff.1 hSame
    exact ⟨t', ht', hEq.trans hOf⟩
  fixtures := hFixtures

/-- The house that a tile belongs to, if there is the tile. -/
def houseOf? (w : World) (p : Position) : Option (Option UInt32) :=
  (w.graph.tile? p).map (·.house)

/-! ## §2. Houses and tiles. -/

/-- A house that is entered is found under its own number. -/
theorem house?_insert (houses : Std.TreeMap UInt32 House) (id j : UInt32) (h : House) :
    (houses.insert id h)[j]? = if j = id then some h else houses[j]? := by
  rw [Std.TreeMap.getElem?_insert]
  by_cases hj : j = id
  · rw [if_pos (by rw [hj]; exact Std.ReflCmp.compare_self), if_pos hj]
  · rw [if_neg fun h => hj (Std.LawfulEqCmp.eq_of_compare h).symm, if_neg hj]

/-- Entering a house leaves the world as the map gives it. -/
theorem yields_enterHouse (h : Drawn c w) (e : HouseEntry) :
    Yields (w.enterHouse e) (Drawn c) := by
  unfold enterHouse
  split_ifs
  · exact yields_bind (P := fun _ => False) (yields_throw _) fun _ h => h.elim
  · refine yields_pure ?_
    constructor
    case catalog => exact h.catalog
    case consistent => exact h.consistent
    case items => exact h.items
    case fixtures => exact h.fixtures
    case houses =>
      intro id house hHouse
      rw [house?, house?_insert] at hHouse
      split_ifs at hHouse with hId
      · cases hHouse
        -- A new house has no tiles yet.
        exact ⟨hId.symm, List.nodup_nil, fun p hp => absurd hp List.not_mem_nil⟩
      · exact h.houses id house hHouse

/-- A new tile belongs to no house. -/
theorem Drawn.ensureTile (h : Drawn c w) {p : Position} (hNone : w.graph.tile? p = none) :
    Drawn c { w with graph := w.graph.ensureTile p }
      ∧ (w.graph.ensureTile p).tile? p = some {} := by
  have hTile := Graph.tile?_ensureTile hNone
  have hItem := w.graph.item?_ensureTile p
  refine ⟨?_, by rw [hTile, if_pos rfl]⟩
  constructor
  case catalog => exact h.catalog
  case consistent => exact h.consistent.ensureTile p
  case items => exact h.items.of_item? hItem
  case houses =>
    intro id house hHouse
    obtain ⟨hId, hNodup, hAll⟩ := h.houses id house hHouse
    refine ⟨hId, hNodup, ?_⟩
    intro q hq
    obtain ⟨t, ht, hOf⟩ := hAll q hq
    -- The tiles of a house were there before.
    have hne : q ≠ p := by
      rintro rfl
      rw [hNone] at ht
      cases ht
    exact ⟨t, by rw [hTile, if_neg hne, ht], hOf⟩
  case fixtures =>
    intro q t ht hHouse id hMem i hi
    rw [hTile] at ht
    rw [hItem] at hi
    -- A new tile has nothing on it.
    split_ifs at ht
    · cases ht
      cases hMem
    · exact h.fixtures q t ht hHouse id hMem i hi

/-- One tile is given to the house, if it is there. -/
theorem tile?_setTileHouse (g : Graph) (p q : Position) (house : Option UInt32) :
    (g.setTileHouse p house).tile? q
      = if q = p then (g.tile? q).map ({ · with house }) else g.tile? q := by
  unfold Graph.setTileHouse
  cases hp : g.tile? p with
  -- A tile that is not there is not made by giving it to a house.
  | none =>
    by_cases hq : q = p
    · rw [if_pos hq, hq, hp]
      rfl
    · rw [if_neg hq]
  | some t =>
    show (g.tiles.insert p { t with house })[q]? = _
    rw [Graph.tile?_insert]
    by_cases hq : q = p
    · rw [if_pos hq, if_pos hq, hq, hp]
      rfl
    · rw [if_neg hq, if_neg hq]
      rfl

/-- Giving a tile to a house changes no item. -/
theorem item?_setTileHouse (g : Graph) (p : Position) (house : Option UInt32) (id : ItemId) :
    (g.setTileHouse p house).item? id = g.item? id := by
  unfold Graph.setTileHouse
  split <;> rfl

/-- The tiles of a house once a new tile belongs to it. -/
theorem Drawn.house_addTile (h : Drawn c w) {p : Position} (hNew : w.graph.tile? p = some {})
    {number : UInt32} {house : House} (hHouse : w.house? number = some house) :
    p ∉ house.tiles ∧ (house.tiles ++ [p]).Nodup ∧ ∀ q ∈ house.tiles ++ [p],
      ∃ t, (w.graph.setTileHouse p (some number)).tile? q = some t ∧ t.house = some number := by
  obtain ⟨_, hNodup, hAll⟩ := h.houses number house hHouse
  -- The tile belongs to no house yet, and those of the house belong to it.
  have hNot : p ∉ house.tiles := by
    intro hp
    obtain ⟨t, ht, hOf⟩ := hAll p hp
    rw [hNew] at ht
    cases ht
    cases hOf
  refine ⟨hNot, ?_, ?_⟩
  · refine List.nodup_append.2 ⟨hNodup, List.nodup_singleton p, ?_⟩
    intro q hq q' hq'
    rw [List.mem_singleton.1 hq']
    rintro rfl
    exact hNot hq
  · intro q hq
    rw [tile?_setTileHouse]
    rcases List.mem_append.1 hq with hOld | hLast
    · obtain ⟨t, ht, hOf⟩ := hAll q hOld
      have hne : q ≠ p := by
        rintro rfl
        exact hNot hOld
      exact ⟨t, by rw [if_neg hne, ht], hOf⟩
    · rw [List.mem_singleton.1 hLast, if_pos rfl, hNew]
      exact ⟨_, rfl, rfl⟩

/-- A new tile that belongs to a house, and stands among the house's own. -/
theorem Drawn.addTileToHouse (h : Drawn c w) {p : Position} (hNew : w.graph.tile? p = some {})
    {number : UInt32} {house : House} (hHouse : w.house? number = some house) :
    Drawn c { w with
      graph := w.graph.setTileHouse p (some number)
      houses := w.houses.insert number { house with tiles := house.tiles ++ [p] } } := by
  obtain ⟨hId, _⟩ := h.houses number house hHouse
  obtain ⟨_, hNodup, hAll⟩ := h.house_addTile hNew hHouse
  constructor
  case catalog => exact h.catalog
  case consistent => exact h.consistent.setTileHouse p (some number)
  case items => exact h.items.of_item? (item?_setTileHouse w.graph p (some number))
  case houses =>
    intro id house' hHouse'
    rw [house?, house?_insert] at hHouse'
    split_ifs at hHouse' with hNumber
    · cases hHouse'
      rw [hNumber]
      exact ⟨hId, hNodup, hAll⟩
    · -- The tile was nobody's: another house keeps its tiles.
      obtain ⟨hId', hNodup', hAll'⟩ := h.houses id house' hHouse'
      refine ⟨hId', hNodup', ?_⟩
      intro q hq
      obtain ⟨t, ht, hOf⟩ := hAll' q hq
      have hne : q ≠ p := by
        rintro rfl
        rw [hNew] at ht
        cases ht
        cases hOf
      exact ⟨t, by rw [tile?_setTileHouse, if_neg hne, ht], hOf⟩
  case fixtures =>
    intro q t ht hOf id hMem i hi
    rw [tile?_setTileHouse] at ht
    rw [item?_setTileHouse] at hi
    split_ifs at ht with hq
    · rw [hq, hNew] at ht
      cases ht
      cases hMem
    · exact h.fixtures q t ht hOf id hMem i hi

/-- The house takes a new tile in and the tile names the house, in one step. -/
theorem Drawn.updateHouse_addTile (h : Drawn c w) {p : Position}
    (hNew : w.graph.tile? p = some {}) {number : UInt32} {house : House}
    (hHouse : w.house? number = some house) :
    w.updateHouse number (fun h g => h.addTile g p)
      = { w with
          graph := w.graph.setTileHouse p (some number)
          houses := w.houses.insert number { house with tiles := house.tiles ++ [p] } } := by
  have hNot := (h.house_addTile hNew hHouse).1
  unfold updateHouse House.addTile
  rw [hHouse]
  dsimp only
  rw [if_neg (by simpa using hNot), (h.houses number house hHouse).1]

/-- **A new tile becomes part of its house.** -/
theorem yields_claimTile (h : Drawn c w) {p : Position} (hNew : w.graph.tile? p = some {})
    (house : Option UInt32) :
    Yields (w.claimTile p house) fun w' => Drawn c w' ∧ w'.houseOf? p = some house := by
  unfold claimTile
  cases house with
  | none =>
    refine yields_pure ⟨h, ?_⟩
    rw [houseOf?, hNew]
    rfl
  | some number =>
    dsimp only
    -- Claiming fails for a house that is not there.
    cases hHouse : w.house? number with
    | none => exact yields_throw _
    | some house =>
      dsimp only
      rw [h.updateHouse_addTile hNew hHouse]
      refine yields_pure ⟨h.addTileToHouse hNew hHouse, ?_⟩
      show ((w.graph.setTileHouse p (some number)).tile? p).map (·.house) = _
      rw [tile?_setTileHouse, if_pos rfl, hNew]
      rfl

/-! ## §3. Items. -/

/-- Changing an item where it lies, if its type, its kind and its time stay. -/
theorem Drawn.updateItem (h : Drawn c w) (id : ItemId) {f : Item → Item}
    (hf : ∀ i, Item.SameBody i (f i)) : Drawn c { w with graph := w.graph.update id f } := by
  have hTiles : ∀ p, (w.graph.update id f).tile? p = w.graph.tile? p :=
    Graph.tile?_eq_of_tiles (Graph.tiles_update w.graph id f)
  refine h.withGraph ?_ ?_ ?_ ?_
  · refine h.consistent.update id f ?_
    intro n _ hHolds
    show (f n.item).variant.isContainer = true
    rw [Variant.isContainer_eq_of_sameKind (hf n.item).kind]
    exact hHolds
  · exact h.items.update id f fun i _ hi => hi.of_sameBody (hf i)
  · intro p
    rw [hTiles]
  · intro p t ht hOf j hMem i hi
    rw [hTiles] at ht
    rw [Graph.item?_update] at hi
    -- The item that is changed has the type that it had.
    split_ifs at hi with hj
    · obtain ⟨old, hOld, rfl⟩ := Option.map_eq_some_iff.1 hi
      intro type hType
      rw [(hf old).typeId] at hType
      exact h.fixtures p t ht hOf j hMem old hOld type hType
    · exact h.fixtures p t ht hOf j hMem i hi

/-- Another house under the same number with the same tiles. -/
theorem Drawn.withHouse (h : Drawn c w) {number : UInt32} {house house' : House}
    (hHouse : w.house? number = some house) (hId : house'.id = house.id)
    (hTiles : house'.tiles = house.tiles) :
    Drawn c { w with houses := w.houses.insert number house' } where
  catalog := h.catalog
  consistent := h.consistent
  items := h.items
  fixtures := h.fixtures
  houses id other hOther := by
    rw [house?, house?_insert] at hOther
    -- Tiles are looked for under the number, which the other house has taken over.
    split_ifs at hOther with hNumber
    · cases hOther
      rw [hId, hTiles, hNumber]
      exact h.houses number house hHouse
    · exact h.houses id other hOther

/-- What registering an item with a house leaves as it is. -/
structure Registered (c : Catalog) (w w' : World) : Prop where
  /-- The world is as a blueprint gives it. -/
  drawn : Drawn c w'
  /-- Tiles belong to the same houses. -/
  houseOf : ∀ p, w'.houseOf? p = w.houseOf? p
  /-- Items have the same types. -/
  types : ∀ j, (w'.graph.item? j).map (·.typeId) = (w.graph.item? j).map (·.typeId)

/-- Registering a door or bed with a house. -/
theorem Drawn.addFixture (h : Drawn c w) (number : UInt32) (id : ItemId) :
    Registered c w (w.updateHouse number fun house g => house.addFixture g id) := by
  cases hHouse : w.house? number with
  | none =>
    unfold updateHouse
    rw [hHouse]
    exact ⟨h, fun p => rfl, fun j => rfl⟩
  | some house =>
    rcases addFixture_cases hHouse id with hSame | ⟨f, i, _, _, _, hEq⟩
    · rw [hSame]
      exact ⟨h.withHouse hHouse rfl rfl, fun p => rfl, fun j => rfl⟩
    · rw [hEq]
      -- To be told its house leaves the body of a fixture.
      have hBody : ∀ i, Item.SameBody i (f.told house.id i) := by
        intro i
        unfold Fixture.told
        split_ifs
        · exact Item.sameBody_setVariant i (Variant.sameKind_setHouse i.variant _)
        · exact Item.SameBody.refl i
      constructor
      case drawn =>
        exact (h.updateItem id hBody).withHouse hHouse (f.id_register house id)
          (f.tiles_register house id)
      case houseOf =>
        intro p
        show Option.map _ ((w.graph.update id _).tile? p) = _
        rw [Graph.tile?_eq_of_tiles (Graph.tiles_update _ _ _)]
        rfl
      -- The variant is told the house, and the type is left.
      case types =>
        intro j
        show Option.map _ ((w.graph.update id _).item? j) = _
        rw [Graph.item?_update]
        split_ifs with hj
        · rw [Option.map_map]
          congr 1
          funext i
          exact (hBody i).typeId
        · rfl

/-- A new tree that lies nowhere. -/
theorem Drawn.create (h : Drawn c w) {t : ItemTree} (ht : t.Drawn c) :
    Drawn c { w with graph := (w.graph.create t).2 }
      ∧ (∀ p, (w.graph.create t).2.tile? p = w.graph.tile? p)
      ∧ (w.graph.create t).2.item? (w.graph.create t).1 = some t.item := by
  have hPlanted := Graph.planted_create h.consistent ht.1
  have hTiles := Graph.tile?_eq_of_tiles hPlanted.tiles
  refine ⟨?_, hTiles, ?_⟩
  · refine h.withGraph hPlanted.consistent (h.items.planted hPlanted ⟨ht.2, trivial⟩) ?_ ?_
    · intro p
      rw [hTiles]
    · intro p tile hTile hOf id hMem i hi
      rw [hTiles] at hTile
      -- What lies on a tile was there before.
      obtain ⟨n, hn, _⟩ := h.consistent.linked (.tile p) id
        (by rw [w.graph.contents_tile hTile]; exact hMem)
      refine h.fixtures p tile hTile hOf id hMem i ?_
      rw [Graph.item?, hPlanted.extends h.consistent id n hn] at hi
      rw [Graph.item?, hn]
      exact hi
  · cases t with
    | node item contents =>
      obtain ⟨⟨n, hn, hItem, _⟩, _⟩ := hPlanted.shows
      exact Graph.item?_eq_some.2 ⟨n, hn, hItem⟩

/-- Putting a new item on a tile; on the tile of a house, one that does not move. -/
theorem Drawn.addTile (h : Drawn c w) {p : Position} {id : ItemId} {g : Graph}
    (hAdd : w.graph.add (.tile p) id = .ok g) {i : Item} (hi : w.graph.item? id = some i)
    (hStays : ∀ house, w.houseOf? p = some (some house) → i.Stays c) :
    Drawn c { w with graph := g } ∧ ∀ q, (g.tile? q).map (·.house) = w.houseOf? q := by
  have hConsistent := h.consistent.add hAdd
  have hItems := h.items.insert hAdd
  obtain ⟨n, hn, _, _, _, rfl⟩ := Graph.insert_eq_ok hAdd
  have hTile : ∀ q, (w.graph.relist (.tile p) (Graph.insertAt (w.graph.contents (.tile p)).length id
      (w.graph.contents (.tile p))) id (some (.tile p))).tile? q
      = if Holder.tile p = .tile q then
          (w.graph.tile? q).map ({ · with contents := w.graph.contents (.tile p) ++ [id] })
        else w.graph.tile? q := by
    intro q
    rw [Graph.relist, Graph.tile?_eq_of_tiles (Graph.tiles_setHolder _ _ _),
      Graph.tile?_setContents, Graph.insertAt_length]
  have hHouses := Graph.house_relist (g := w.graph) (.tile p)
    (Graph.insertAt (w.graph.contents (.tile p)).length id (w.graph.contents (.tile p))) id
    (some (.tile p))
  refine ⟨h.withGraph hConsistent hItems hHouses ?_, hHouses⟩
  intro q t ht hOf j hMem k hk
  rw [hTile] at ht
  rw [Graph.item?_relist] at hk
  split_ifs at ht with hq
  · obtain rfl := Holder.tile.inj hq
    obtain ⟨old, hOld, rfl⟩ := Option.map_eq_some_iff.1 ht
    rw [w.graph.contents_tile hOld] at hMem
    -- What lay there stays where it was; the last one is the new item.
    rcases List.mem_append.1 hMem with hMem | hMem
    · exact h.fixtures p old hOld hOf j hMem k hk
    · rw [List.mem_singleton.1 hMem, hi] at hk
      cases hk
      obtain ⟨house, hHouse⟩ := Option.isSome_iff_exists.1 hOf
      refine hStays house ?_
      rw [houseOf?, hOld, Option.map_some]
      exact congrArg some hHouse
  · exact h.fixtures q t ht hOf j hMem k hk

/-- Puts an item on a tile of the map, unless the tile declines it. -/
def putOn (w : World) (p : Position) (id : ItemId) : Drafting World :=
  match w.graph.add (.tile p) id with
  | .ok graph => return { w with graph }
  | .error e => throw (.tile p e)

/-- An item that is put on a tile is added to it, or the draft fails. -/
theorem yields_putOn {P : World → Prop} {p : Position} {id : ItemId}
    (h : ∀ g, w.graph.add (.tile p) id = .ok g → P { w with graph := g }) :
    Yields (w.putOn p id) P := by
  unfold putOn
  cases hAdd : w.graph.add (.tile p) id with
  | error e => exact yields_throw _
  | ok g => exact yields_pure (h g hAdd)

/-- **A tree is put on a tile**; on the tile of a house, one that does not move. -/
theorem yields_enterTree (h : Drawn c w) {p : Position} {house : Option UInt32}
    (hHouse : w.houseOf? p = some house) {t : ItemTree} (ht : t.Drawn c)
    (hStays : house.isSome → t.item.Stays c) :
    Yields (w.enterTree p house t) fun w' => Drawn c w' ∧ w'.houseOf? p = some house := by
  obtain ⟨hNew, hTiles, hItem⟩ := h.create ht
  have hStill : ({ w with graph := (w.graph.create t).2 } : World).houseOf? p = some house := by
    rw [houseOf?, hTiles]
    exact hHouse
  -- Registering keeps the type of the item.
  have hPut : ∀ w₁ : World, Drawn c w₁ → w₁.houseOf? p = some house →
      (∃ i, w₁.graph.item? (w.graph.create t).1 = some i ∧ (house.isSome → i.Stays c)) →
      Yields (w₁.putOn p (w.graph.create t).1)
        fun w' => Drawn c w' ∧ w'.houseOf? p = some house := by
    intro w₁ hw₁ hOf ⟨i, hi, hStays⟩
    refine yields_putOn ?_
    intro g hAdd
    obtain ⟨hDone, hSame⟩ := hw₁.addTile hAdd hi (by
      intro number hNumber
      rw [hOf] at hNumber
      exact hStays (by rw [Option.some_inj.1 hNumber]; rfl))
    exact ⟨hDone, (hSame p).trans hOf⟩
  cases house with
  | none => exact hPut _ hNew hStill ⟨_, hItem, hStays⟩
  | some number =>
    have hRegistered := hNew.addFixture number (w.graph.create t).1
    refine hPut _ hRegistered.drawn ((hRegistered.houseOf p).trans hStill) ?_
    have hTypes := hRegistered.types (w.graph.create t).1
    rw [hItem, Option.map_some] at hTypes
    obtain ⟨i, hi, hSame⟩ := Option.map_eq_some_iff.1 hTypes
    refine ⟨i, hi, ?_⟩
    intro hSome type hType
    rw [hSame] at hType
    exact hStays hSome type hType

/-- An entry of a tile becomes an item on it, or is left out. -/
theorem yields_enterItem {p : Position} {house : Option UInt32} (e : ItemEntry)
    (h : Drawn c w ∧ w.houseOf? p = some house) :
    Yields (enterItem p house w e) fun w' => Drawn c w' ∧ w'.houseOf? p = some house := by
  unfold enterItem
  rw [h.1.catalog]
  refine yields_bind (yields_build c e) ?_
  intro o ho
  cases o with
  | none => exact yields_pure h
  | some tree =>
    have hTree := ho tree rfl
    cases house with
    | none => exact yields_enterTree h.1 h.2 hTree fun h => by cases h
    | some number =>
      dsimp only
      -- What moves is left out, and so all that lies on tiles of houses stays put.
      split_ifs with hMoves
      · refine yields_bind yields_any fun _ _ => yields_bind yields_any fun _ _ => ?_
        exact yields_pure h
      · refine yields_enterTree h.1 h.2 hTree ?_
        intro _ type hType
        unfold isMoveable at hMoves
        rw [h.1.catalog, hType] at hMoves
        exact Bool.eq_false_iff.2 hMoves

/-- Entering a tile with its items leaves the world as the map gives it. -/
theorem yields_enterTile (h : Drawn c w) (e : TileEntry) : Yields (w.enterTile e) (Drawn c) := by
  unfold enterTile
  split_ifs with hTwice
  · -- A tile that is entered twice ends the build, and no world comes of it.
    exact yields_bind (P := fun _ => False) (yields_throw _) fun _ h => h.elim
  · have hNone : w.graph.tile? e.position = none := by simpa using hTwice
    obtain ⟨hNew, hTile⟩ := h.ensureTile hNone
    refine yields_bind yields_any fun _ _ => ?_
    refine yields_bind (yields_claimTile hNew hTile e.house) ?_
    intro w' hw'
    exact (yields_foldlM (fun _ entry hEntry => yields_enterItem entry hEntry) e.items hw').imp
      fun _ hDone => hDone.1

/-! ## §4. Worlds of blueprints. -/

/-- A world without tiles is as the map gives it. -/
theorem drawn_empty (c : Catalog) (name : String) :
    Drawn c { catalog := c, name } where
  catalog := rfl
  consistent := Graph.consistent_empty
  items id i hi := by cases hi
  houses id h hHouse := by cases hHouse
  fixtures p t ht := by cases ht

/-- **What is true of the empty world, and is kept by every house and every tile that is entered, is
true of the world of a blueprint.**  It may name the houses and the tiles that have been entered. -/
theorem ofBlueprint_induction_done {c : Catalog} {b : Blueprint} {w : World}
    {P : List HouseEntry → List TileEntry → World → Prop}
    (hEmpty : P [] [] { catalog := c, name := b.name })
    (hHouse : ∀ done w e, P done [] w → Yields (enterHouse w e) (P (done ++ [e]) []))
    (hTile : ∀ done w e, P b.houses done w → Yields (enterTile w e) (P b.houses (done ++ [e])))
    (h : (ofBlueprint c b).1 = .ok w) : P b.houses b.tiles w := by
  have hDraft : Yields (draft c b) (P b.houses b.tiles) := by
    unfold draft
    -- All houses first, and then all tiles.
    refine yields_bind
      (yields_foldlM_done (P := fun done => P done []) hHouse b.houses [] hEmpty) ?_
    intro w' hw'
    exact yields_foldlM_done hTile b.tiles [] hw'
  exact hDraft {} w h

/-- The same of a property that names nothing of what has been entered. -/
theorem ofBlueprint_induction {c : Catalog} {b : Blueprint} {w : World} {P : World → Prop}
    (hEmpty : P { catalog := c, name := b.name })
    (hHouse : ∀ w e, P w → Yields (enterHouse w e) P)
    (hTile : ∀ w e, P w → Yields (enterTile w e) P)
    (h : (ofBlueprint c b).1 = .ok w) : P w :=
  ofBlueprint_induction_done (P := fun _ _ => P) hEmpty (fun _ => hHouse) (fun _ => hTile) h

/-- **The world of a blueprint is as it should be.** -/
theorem drawn_ofBlueprint {c : Catalog} {b : Blueprint} {w : World}
    (h : (ofBlueprint c b).1 = .ok w) : Drawn c w :=
  ofBlueprint_induction (drawn_empty c b.name) (fun _ e hw => yields_enterHouse hw e)
    (fun _ e hw => yields_enterTile hw e) h

/-! ## §5. The tiles of houses. -/

/-- The rows of a map are those of its pairs. -/
theorem values_eq {κ β : Type} [Ord κ] (rows : Std.TreeMap κ β) :
    rows.values = rows.toList.map (·.2) := by
  show rows.foldr (fun _ row rest => row :: rest) [] = _
  rw [Std.TreeMap.foldr_eq_foldr_toList]
  induction rows.toList with
  | nil => rfl
  | cons pair pairs ih =>
    rw [List.foldr_cons, ih]
    rfl

/-- A row is in a map exactly if it is found under some key. -/
theorem mem_values_iff {κ β : Type} [Ord κ] [Std.TransOrd κ] [Std.LawfulEqOrd κ]
    {rows : Std.TreeMap κ β} {row : β} : row ∈ rows.values ↔ ∃ k : κ, rows[k]? = some row := by
  rw [values_eq, List.mem_map]
  constructor
  · rintro ⟨⟨k, row⟩, hPair, rfl⟩
    exact ⟨k, Std.TreeMap.mem_toList_iff_getElem?_eq_some.1 hPair⟩
  · rintro ⟨k, hGet⟩
    exact ⟨(k, row), Std.TreeMap.mem_toList_iff_getElem?_eq_some.2 hGet, rfl⟩

/-- A house of the register is found under some number. -/
theorem mem_houses_values {h : House} (hMem : h ∈ w.houses.values) :
    ∃ id, w.house? id = some h :=
  mem_values_iff.1 hMem

/-- The tiles of houses are those that the houses of the register list. -/
theorem mem_houseTiles {tile : UInt32 × Position} :
    tile ∈ w.houseTiles ↔ ∃ h ∈ w.houses.values, tile.1 = h.id ∧ tile.2 ∈ h.tiles := by
  unfold houseTiles
  rw [List.mem_flatMap]
  constructor
  · rintro ⟨h, hMem, hTile⟩
    obtain ⟨p, hp, rfl⟩ := List.mem_map.1 hTile
    exact ⟨h, hMem, rfl, hp⟩
  · rintro ⟨h, hMem, hId, hp⟩
    exact ⟨h, hMem, List.mem_map.2 ⟨tile.2, hp, by rw [← hId]⟩⟩

/-- The tiles of houses are there, and lie in the houses that have them. -/
theorem Drawn.houseOf?_of_mem (h : Drawn c w) {tile : UInt32 × Position}
    (hMem : tile ∈ w.houseTiles) : w.houseOf? tile.2 = some (some tile.1) := by
  obtain ⟨house, hHouse, hId, hp⟩ := mem_houseTiles.1 hMem
  obtain ⟨id, hGet⟩ := mem_houses_values hHouse
  obtain ⟨hNumber, _, hAll⟩ := h.houses id house hGet
  obtain ⟨t, ht, hOf⟩ := hAll tile.2 hp
  rw [houseOf?, ht, Option.map_some, hOf, hId, hNumber]

/-- **No tile belongs to two houses**, or twice to one. -/
theorem Drawn.nodup_houseTiles (h : Drawn c w) : (w.houseTiles.map (·.2)).Nodup := by
  have hTiles : w.houseTiles.map (·.2) = w.houses.toList.flatMap (·.2.tiles) := by
    unfold houseTiles
    rw [values_eq, List.flatMap_map, List.map_flatMap]
    congr 1
    funext pair
    rw [List.map_map]
    exact List.map_id _
  rw [hTiles, List.nodup_flatMap]
  have hHouse : ∀ pair ∈ w.houses.toList, w.house? pair.1 = some pair.2 :=
    fun pair hPair => Std.TreeMap.mem_toList_iff_getElem?_eq_some.1 hPair
  constructor
  · intro pair hPair
    exact (h.houses pair.1 pair.2 (hHouse pair hPair)).2.1
  · have hDistinct := Std.TreeMap.distinct_keys_toList (t := w.houses)
    refine hDistinct.imp_of_mem ?_
    intro a b ha hb hne p hpa hpb
    -- The tile says which house it belongs to.
    obtain ⟨t, ht, hOf⟩ := (h.houses a.1 a.2 (hHouse a ha)).2.2 p hpa
    obtain ⟨t', ht', hOf'⟩ := (h.houses b.1 b.2 (hHouse b hb)).2.2 p hpb
    obtain rfl := Option.some_inj.1 (ht.symm.trans ht')
    have hSame : a.1 = b.1 := Option.some_inj.1 (hOf.symm.trans hOf')
    exact hne (by rw [hSame]; exact Std.ReflCmp.compare_self)

end World

end Homestead
