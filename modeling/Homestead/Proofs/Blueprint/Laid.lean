/-
  Homestead.Proofs.Blueprint.Laid
  ───────────────────────────────
  **WHAT A NEW TILE AND A NEW ITEM CHANGE.**

  A new tile has nothing on it, belongs to the house that is drawn for it,
  and is the last one of that house's tiles.  A new item comes to lie after
  all that lies on its tile.  If the tile is one of a house and the item is
  a door or a bed, it knows the house and is the last one of the house's
  doors or beds.  Nothing else changes.

  Main results:
    * `Graph.Laid`, `World.Laid` — what a new item changes;
    * `World.yields_enterTree_laid` — putting a tree on a tile;
    * `World.Opened`, `World.yields_claimTile_opened` — a new tile.
-/
import Homestead.Proofs.Blueprint.Drawn

namespace Homestead

open Drafting

/-! ## §1. Items that know their house. -/

/-- An item once it lies on a tile: a door or a bed knows the house that the tile belongs to. -/
def Item.told (house : Option UInt32) (i : Item) : Item :=
  match house with
  | none => i
  | some number => { i with variant := i.variant.setHouse (some number) }

/-- A tree whose item lies on a tile. -/
def ItemTree.told (house : Option UInt32) : ItemTree → ItemTree
  | node i contents => node (i.told house) contents

/-- A house once an item lies on one of its tiles. -/
def House.taking (h : House) (id : ItemId) (i : Item) : House :=
  { h with
    doors := h.doors ++ if i.isDoor then [id] else []
    beds := h.beds ++ if i.isBed then [id] else [] }

namespace Fixture

variable {f : Fixture} {i : Item} {h : House} {id : ItemId}

/-- A house that takes an item in lists it where it belongs. -/
theorem ofHouse_taking (f : Fixture) (h : House) (id : ItemId) (i : Item) :
    f.ofHouse (h.taking id i) = f.ofHouse h ++ if f.ofItem i then [id] else [] := by
  cases f <;> rfl

/-- A door that is told its house is a door still. -/
theorem ofItem_told (f : Fixture) (house : Option UInt32) (i : Item) :
    f.ofItem (i.told house) = f.ofItem i := by
  cases house with
  | none => rfl
  | some number => exact f.ofVariant_eq_of_sameKind (Variant.sameKind_setHouse i.variant _)

/-- A door or a bed that has been told its house knows it. -/
theorem house?_told (hKind : f.ofItem i = true) (number : UInt32) :
    (i.told (some number)).variant.house? = some number := by
  have hStates : ∀ v : Variant, f.ofVariant v = true →
      (v.setHouse (some number)).house? = some number := by
    intro v hv
    cases f <;> cases v <;> first | (cases hv; done) | rfl
  exact hStates i.variant hKind

/-- A fixture is told its house as its kind is. -/
theorem told_eq (hKind : f.ofItem i = true) (number : UInt32) :
    f.told number i = i.told (some number) :=
  if_pos hKind

/-- Nothing else is told anything. -/
theorem told_of_none (hNone : ∀ f : Fixture, f.ofItem i = false) (number : UInt32) :
    i.told (some number) = i := by
  have hDoor : i.variant.isDoor = false := hNone .door
  have hBed : i.variant.isBed = false := hNone .bed
  have hSame : i.variant.setHouse (some number) = i.variant := by
    cases hv : i.variant <;> rw [hv] at hDoor hBed <;>
      first | rfl | (cases hDoor; done) | cases hBed
  rw [Item.told, hSame]

/-- Registering a door or a bed takes it in. -/
theorem register_eq (hKind : f.ofItem i = true) : f.register h id = h.taking id i := by
  -- An item is a fixture of one kind.
  have hOnly : ∀ g : Fixture, g.ofItem i = decide (g = f) := by
    intro g
    cases hOther : g.ofItem i with
    | true => simp [eq_of_ofVariant hOther hKind]
    | false =>
      have hne : g ≠ f := by
        rintro rfl
        rw [hKind] at hOther
        cases hOther
      simp [hne]
  have hDoor : i.isDoor = decide (door = f) := hOnly .door
  have hBed : i.isBed = decide (bed = f) := hOnly .bed
  rw [House.taking, hDoor, hBed]
  cases f <;> simp [register]

/-- A house does not list what is no fixture. -/
theorem taking_of_none (hNone : ∀ f : Fixture, f.ofItem i = false) : h.taking id i = h := by
  have hDoor : i.isDoor = false := hNone .door
  have hBed : i.isBed = false := hNone .bed
  rw [House.taking, hDoor, hBed]
  simp

end Fixture

/-! ## §2. Graphs. -/

namespace Graph

variable {g g' g₂ : Graph} {id j : ItemId} {p : Position}

/-- What lies in an item's contents, however deep, is not the item. -/
theorem Consistent.ne_of_reaches (hg : g.Consistent) {child : ItemId} (hReach : g.Reaches j child)
    (hLies : g.Lies child id) : j ≠ id := by
  obtain ⟨rank, hRank⟩ := hg.ranked
  have hLe : rank j ≤ rank child := by
    induction hReach using Relation.ReflTransGen.head_induction_on with
    | refl => exact Nat.le_refl _
    | head hStep _ ih => exact Nat.le_trans (Nat.le_of_lt (hRank _ _ hStep)) ih
  rintro rfl
  exact absurd (hRank _ _ hLies) (Nat.not_lt.2 hLe)

/-- `g'` is `g` with an item in the place of another. -/
structure Recast (g g' : Graph) (id : ItemId) (i : Item) : Prop where
  /-- The node has the item. -/
  own : g'.node? id = (g.node? id).map ({ · with item := i })
  /-- The other nodes are as before. -/
  others : ∀ j, j ≠ id → g'.node? j = g.node? j
  /-- The tiles are as before. -/
  tiles : g'.tiles = g.tiles

theorem Recast.refl {i : Item} (hi : g.item? id = some i) : Recast g g id i where
  own := by
    obtain ⟨n, hn, rfl⟩ := item?_eq_some.1 hi
    rw [hn, Option.map_some]
  others _ _ := rfl
  tiles := rfl

/-- An update recasts one item. -/
theorem recast_update {i i' : Item} (hi : g.item? id = some i) {f : Item → Item} (hf : f i = i') :
    Recast g (g.update id f) id i' where
  own := by
    obtain ⟨n, hn, rfl⟩ := item?_eq_some.1 hi
    rw [node?_update, if_pos rfl, hn, Option.map_some, Option.map_some, hf]
  others j hj := by rw [node?_update, if_neg hj]
  tiles := tiles_update g id f

/-- **The item shows what it showed**, with another item at the root. -/
theorem Recast.shows {i i' : Item} (h : Recast g g' id i') (hg : g.Consistent)
    {contents : List ItemTree} (hShows : g.Shows id (.node i contents)) :
    g'.Shows id (.node i' contents) := by
  obtain ⟨n, hn, _, hAll⟩ := hShows
  refine ⟨{ n with item := i' }, by rw [h.own, hn, Option.map_some], rfl, ?_⟩
  refine ShowsAll.of_agree contents n.contents ?_ hAll
  intro child hChild j hReach m hm
  have hLies : g.Lies child id := by
    rw [Lies, g.contents_item hn]
    exact hChild
  exact ⟨m, by rw [h.others j (hg.ne_of_reaches hReach hLies), hm], rfl, rfl⟩

/-- `g'` is `g` with a new item at the end of a tile, which shows the tree. -/
structure Laid (g g' : Graph) (p : Position) (id : ItemId) (t : ItemTree) : Prop where
  /-- The item lies after all that lay on the tile; other tiles have on them what they had. -/
  contents : ∀ q, g'.contents (.tile q)
    = g.contents (.tile q) ++ if q = p then [id] else []
  /-- The item shows the tree. -/
  shows : g'.Shows id t
  /-- The items that were there show what they showed. -/
  old : ∀ j u, g.Shows j u → g'.Shows j u

/-- What is laid on a tile comes to lie behind what is there. -/
theorem Laid.contents_here {t : ItemTree} (h : Laid g g' p id t) :
    g'.contents (.tile p) = g.contents (.tile p) ++ [id] := by
  rw [h.contents, if_pos rfl]

/-- What is laid on a tile leaves the other tiles. -/
theorem Laid.contents_elsewhere {t : ItemTree} (h : Laid g g' p id t) {q : Position} (hq : q ≠ p) :
    g'.contents (.tile q) = g.contents (.tile q) := by
  rw [h.contents, if_neg hq, List.append_nil]

/-- What lay on a tile is as it was. -/
theorem Laid.item?_eq {t : ItemTree} (h : Laid g g' p id t) (hg : g.Consistent) {q : Position}
    (hMem : j ∈ g.contents (.tile q)) : g'.item? j = g.item? j := by
  obtain ⟨n, hn, _⟩ := hg.linked _ _ hMem
  obtain ⟨u, hu⟩ := hg.tree?_isSome (Option.isSome_of_eq_some hn)
  have hShows := hg.tree?_eq_some_iff.1 hu
  rw [hShows.item?_eq, (h.old j u hShows).item?_eq]

/-- **A new tree is put on a tile**, after its item has been recast. -/
theorem laid_add (hg : g.Consistent) {i i' : Item} {trees : List ItemTree}
    (hHollow : (ItemTree.node i trees).Every ItemTree.Hollow)
    (hCast : Recast (g.create (.node i trees)).2 g₂ (g.create (.node i trees)).1 i')
    (hAdd : g₂.add (.tile p) (g.create (.node i trees)).1 = .ok g') :
    Laid g g' p (g.create (.node i trees)).1 (.node i' trees) := by
  have hPlanted := planted_create hg hHollow
  have hFresh := (hPlanted.root _ List.mem_cons_self).1
  -- The item that is recast is new, so nothing that was there before is touched.
  have hExtends : ∀ j n, g.node? j = some n → g₂.node? j = some n := by
    intro j n hn
    have hne : j ≠ (g.create (.node i trees)).1 :=
      Nat.ne_of_lt (Nat.lt_of_lt_of_le (hg.numbered j n hn) hFresh)
    rw [hCast.others j hne]
    exact hPlanted.extends hg j n hn
  have hContents : ∀ q, g₂.contents (.tile q) = g.contents (.tile q) := by
    intro q
    rw [contents, tile?_eq_of_tiles (hCast.tiles.trans hPlanted.tiles), contents]
  obtain ⟨_, _, _, hLive, _, rfl⟩ := insert_eq_ok hAdd
  constructor
  case contents =>
    intro q
    rw [contents_relist hLive, insertAt_length, hContents, hContents]
    by_cases hq : q = p
    · rw [if_pos (by rw [hq]), if_pos hq, hq]
    · rw [if_neg (fun h => hq (Holder.tile.inj h)), if_neg hq, List.append_nil]
  case shows =>
    have hCastShows := hCast.shows hPlanted.consistent hPlanted.shows.1
    have hOne : g₂.ShowsAll [(g.create (.node i trees)).1] [.node i' trees] :=
      ⟨hCastShows, trivial⟩
    exact (hOne.relist_tile p _ _ _).1
  case old =>
    intro j u hShows
    have hOne : g₂.ShowsAll [j] [u] := ⟨hShows.of_extends hExtends, trivial⟩
    exact (hOne.relist_tile p _ _ _).1

end Graph

/-! ## §3. Putting a tree on a tile. -/

/-- **Registering an item that the house does not have**: the house takes it in, and the item is
told. -/
theorem House.addFixture_fresh (h : House) {g : Graph} {id : ItemId} {i : Item}
    (hi : g.item? id = some i) (hFresh : ∀ f : Fixture, id ∉ f.ofHouse h) :
    ∃ g', h.addFixture g id = (h.taking id i, g') ∧ g.Recast g' id (i.told (some h.id)) := by
  unfold addFixture
  rw [hi]
  dsimp only
  -- The item is a door, a bed, or nothing that a house lists.
  split_ifs with hDoor hBed
  · unfold addDoor
    rw [if_neg (by simpa [Fixture.ofHouse] using hFresh .door)]
    have hKind : Fixture.door.ofItem i = true := hDoor
    exact ⟨_, Prod.ext (Fixture.register_eq hKind) rfl,
      Graph.recast_update hi (Fixture.told_eq hKind h.id)⟩
  · unfold addBed
    rw [if_neg (by simpa [Fixture.ofHouse] using hFresh .bed)]
    have hKind : Fixture.bed.ofItem i = true := hBed
    exact ⟨_, Prod.ext (Fixture.register_eq hKind) rfl,
      Graph.recast_update hi (Fixture.told_eq hKind h.id)⟩
  · have hNone : ∀ f : Fixture, f.ofItem i = false := by
      intro f
      cases f with
      | door => exact Bool.eq_false_iff.2 hDoor
      | bed => exact Bool.eq_false_iff.2 hBed
    rw [Fixture.taking_of_none hNone, Fixture.told_of_none hNone]
    exact ⟨g, rfl, Graph.Recast.refl hi⟩

namespace World

variable {c : Catalog} {w w' : World} {p : Position} {house : Option UInt32} {t : ItemTree}

/-- `w'` is `w` with a new item at the end of a tile, which knows the house that the tile belongs to
and has been taken in there. -/
structure Laid (w w' : World) (p : Position) (house : Option UInt32) (id : ItemId)
    (t : ItemTree) : Prop where
  /-- The item lies on the tile. -/
  graph : w.graph.Laid w'.graph p id (t.told house)
  /-- Tiles belong to the same houses. -/
  houseOf : ∀ q, w'.houseOf? q = w.houseOf? q
  /-- The house of the tile has taken the item in; other houses are as before. -/
  houses : ∀ n, w'.house? n
    = (w.house? n).map fun h => if house = some n then h.taking id t.item else h

/-- What is registered exists. -/
def Registers (w : World) : Prop :=
  ∀ (f : Fixture) n h, w.house? n = some h → ∀ d ∈ f.ofHouse h, (w.graph.item? d).isSome

/-- Nothing changes for the houses if there is none to change. -/
theorem house?_eq_map (n : UInt32) (φ : House → House) :
    w.house? n = (w.house? n).map fun h => if none = some n then φ h else h := by
  cases w.house? n <;> rfl

/-- The houses once one of them has changed. -/
theorem house?_insert_eq_map {number : UInt32} {owner : House} (h : w.house? number = some owner)
    (φ : House → House) (n : UInt32) : (w.houses.insert number (φ owner))[n]?
      = (w.house? n).map fun h => if some number = some n then φ h else h := by
  rw [house?_insert]
  by_cases hn : n = number
  · rw [if_pos hn, hn, h, Option.map_some, if_pos rfl]
  · have hOther : some number ≠ some n := fun hSame => hn (Option.some_inj.1 hSame).symm
    simp only [if_neg hn, if_neg hOther, Option.map_id']
    rfl

/-- A house takes in an item that it does not list yet. -/
theorem updateHouse_fresh {number : UInt32} {owner : House} (hOwner : w.house? number = some owner)
    {id : ItemId} {i : Item} (hi : w.graph.item? id = some i)
    (hFresh : ∀ f : Fixture, id ∉ f.ofHouse owner) :
    ∃ g', w.updateHouse number (fun h g => h.addFixture g id)
        = { w with graph := g', houses := w.houses.insert number (owner.taking id i) }
      ∧ w.graph.Recast g' id (i.told (some owner.id)) := by
  obtain ⟨g', hAdded, hCast⟩ := owner.addFixture_fresh hi hFresh
  refine ⟨g', ?_, hCast⟩
  unfold updateHouse
  rw [hOwner]
  dsimp only
  rw [hAdded]

/-- A new tree is put on its tile, once its item knows the house and the house has taken it in. -/
theorem yields_putOn_laid (h : Drawn c w) {i : Item} {trees : List ItemTree}
    (ht : (ItemTree.node i trees).Drawn c) {v : World}
    (hCast : (w.graph.create (.node i trees)).2.Recast v.graph (w.graph.create (.node i trees)).1
      (i.told house))
    (hHouses : ∀ n, v.house? n = (w.house? n).map fun h =>
      if house = some n then h.taking (w.graph.create (.node i trees)).1 i else h) :
    Yields (v.putOn p (w.graph.create (.node i trees)).1)
      fun w' => ∃ id, Laid w w' p house id (.node i trees) := by
  have hPlanted := Graph.planted_create h.consistent ht.1
  refine yields_putOn fun g' hAdd => ?_
  refine ⟨_, Graph.laid_add h.consistent ht.1 hCast hAdd, ?_, hHouses⟩
  intro q
  rw [houseOf?, Graph.house_add hAdd, Graph.tile?_eq_of_tiles (hCast.tiles.trans hPlanted.tiles),
    houseOf?]

/-- **A tree is put on a tile.** -/
theorem yields_enterTree_laid (h : Drawn c w) (hRegisters : Registers w) (ht : t.Drawn c)
    (hKnown : ∀ n, house = some n → (w.house? n).isSome) :
    Yields (w.enterTree p house t) fun w' => ∃ id, Laid w w' p house id t := by
  obtain ⟨i, trees⟩ := t
  have hItem := (h.create ht).2.2
  cases house with
  | none =>
    exact yields_putOn_laid (v := { w with graph := (w.graph.create (.node i trees)).2 }) h ht
      (.refl hItem) fun n => house?_eq_map n _
  | some number =>
    obtain ⟨owner, hOwner⟩ := Option.isSome_iff_exists.1 (hKnown number rfl)
    -- What is registered was there before the tree.
    have hFresh : ∀ f : Fixture, (w.graph.create (.node i trees)).1 ∉ f.ofHouse owner := by
      intro f hMem
      obtain ⟨old, hOld⟩ := Option.isSome_iff_exists.1 (hRegisters f number owner hOwner _ hMem)
      obtain ⟨n, hn, _⟩ := Graph.item?_eq_some.1 hOld
      have hPlanted := Graph.planted_create h.consistent ht.1
      exact Nat.not_lt.2 (hPlanted.root _ List.mem_cons_self).1 (h.consistent.numbered _ n hn)
    obtain ⟨g', hTold, hCast⟩ := updateHouse_fresh
      (w := { w with graph := (w.graph.create (.node i trees)).2 }) hOwner hItem hFresh
    rw [(h.houses number owner hOwner).1] at hCast
    have hSteps : w.enterTree p (some number) (.node i trees)
        = (({ w with graph := (w.graph.create (.node i trees)).2 } : World).updateHouse number
            fun h g => h.addFixture g (w.graph.create (.node i trees)).1).putOn p
          (w.graph.create (.node i trees)).1 := rfl
    rw [hSteps, hTold]
    exact yields_putOn_laid h ht hCast fun n => house?_insert_eq_map hOwner (·.taking _ i) n

/-! ## §4. A new tile. -/

/-- `w'` is `w` with a new tile, which belongs to a house and is the last of its tiles. -/
structure Opened (w w' : World) (p : Position) (house : Option UInt32) : Prop where
  /-- The items are as before. -/
  nodes : ∀ j, w'.graph.node? j = w.graph.node? j
  /-- On all tiles lies what lay there; nothing lies on the new one. -/
  contents : ∀ q, w'.graph.contents (.tile q) = w.graph.contents (.tile q)
  /-- The new tile belongs to the house. -/
  houseOf : ∀ q, w'.houseOf? q = if q = p then some house else w.houseOf? q
  /-- There is the house. -/
  known : ∀ n, house = some n → (w.house? n).isSome
  /-- It has the tile; other houses are as before. -/
  houses : ∀ n, w'.house? n
    = (w.house? n).map fun h => if house = some n then { h with tiles := h.tiles ++ [p] } else h

/-- Giving a tile to a house moves nothing. -/
theorem contents_setTileHouse (g : Graph) (p q : Position) (house : Option UInt32) :
    (g.setTileHouse p house).contents (.tile q) = g.contents (.tile q) := by
  rw [Graph.contents, Graph.contents, tile?_setTileHouse]
  split_ifs
  · cases g.tile? q <;> rfl
  · rfl

/-- **A new tile is added to the map and to its house.** -/
theorem yields_claimTile_opened (h : Drawn c w) (hNone : w.graph.tile? p = none)
    (house : Option UInt32) :
    Yields (({ w with graph := w.graph.ensureTile p } : World).claimTile p house)
      fun w' => Opened w w' p house := by
  obtain ⟨hNew, hTile⟩ := h.ensureTile hNone
  have hNode : ∀ j, (w.graph.ensureTile p).node? j = w.graph.node? j := by
    intro j
    unfold Graph.ensureTile
    split <;> rfl
  have hHouseOf : ∀ q, (({ w with graph := w.graph.ensureTile p } : World).houseOf? q)
      = if q = p then some none else w.houseOf? q := by
    intro q
    rw [houseOf?, houseOf?, Graph.tile?_ensureTile hNone]
    split_ifs <;> rfl
  -- A tile of no house is opened as it is; a tile of a house is noted on both sides.
  unfold claimTile
  cases house with
  | none =>
    refine yields_pure ?_
    constructor
    case nodes => exact hNode
    case contents => exact fun q => Graph.contents_ensureTile p (.tile q)
    case houseOf => exact hHouseOf
    case known => exact fun n hn => by cases hn
    case houses => exact fun n => house?_eq_map n _
  | some number =>
    dsimp only
    -- Claiming for a house that is not there fails, and then nothing is to be shown.
    cases hOwner : ({ w with graph := w.graph.ensureTile p } : World).house? number with
    | none => exact yields_throw _
    | some owner =>
      have hOld : w.house? number = some owner := hOwner
      dsimp only
      rw [hNew.updateHouse_addTile hTile hOwner]
      refine yields_pure ?_
      constructor
      case nodes =>
        intro j
        rw [← hNode j]
        show ((w.graph.ensureTile p).setTileHouse p (some number)).node? j = _
        unfold Graph.setTileHouse
        split <;> rfl
      case contents =>
        intro q
        rw [contents_setTileHouse]
        exact Graph.contents_ensureTile p (.tile q)
      case houseOf =>
        intro q
        rw [houseOf?, tile?_setTileHouse]
        by_cases hq : q = p
        · rw [if_pos hq, if_pos hq, hq, hTile]
          rfl
        · rw [if_neg hq, if_neg hq, Graph.tile?_ensureTile hNone, if_neg hq, houseOf?]
      case known =>
        rintro n ⟨⟩
        rw [hOld]
        rfl
      case houses =>
        exact fun n => house?_insert_eq_map hOld
          (fun h => { h with tiles := h.tiles ++ [p] }) n

end World

end Homestead
