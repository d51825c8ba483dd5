/-
  Homestead.Proofs.Blueprint.Followed
  ───────────────────────────────────
  **A WORLD IS BUILT AS ITS BLUEPRINT SAYS.**

  The houses and tiles of the world are those that are drawn, and a house
  has the tiles that name it, in the order in which they are drawn.  On
  every tile lies what is made of its entries, in order, without what
  cannot be made and, on the tile of a house, without what moves.  The
  doors and beds of a house are those that lie on its tiles, in order, and
  know the house.

  All this is true at every moment for the part of the blueprint that has
  been built by then: the houses so far, the tiles so far, and of the last
  tile the entries so far.

  Main results:
    * `Charted` — houses and tiles as they are drawn;
    * `Follows` — a world as its blueprint says;
    * `built_as_drawn` — worlds of blueprints, and what is reported of
      them.
-/
import Homestead.Proofs.Blueprint.Counted
import Homestead.Proofs.Blueprint.Laid
import Homestead.Proofs.Record.Decoded

namespace Homestead

open Drafting

/-! ## §1. As it is drawn. -/

/-- The house of an entry, without tiles, doors and beds. -/
def HouseEntry.bare (e : HouseEntry) : House where
  id := e.id
  name := e.name
  entry := e.entry
  town := e.town
  rent := e.rent

/-- A house without its tiles, doors and beds. -/
def House.bare (h : House) : House :=
  { h with tiles := [], doors := [], beds := [] }

/-- The tiles that are drawn, with the houses that they belong to. -/
def Blueprint.lots (b : Blueprint) : List (Position × Option UInt32) :=
  b.tiles.map fun e => (e.position, e.house)

/-- The entries of a tile of which items are made and put there. -/
def TileEntry.placed (c : Catalog) (e : TileEntry) : List ItemEntry :=
  e.items.filter (·.isPlaced c e.house)

namespace World

/-- Houses and tiles are as they are drawn. -/
structure Charted (b : Blueprint) (w : World) : Prop where
  /-- No two houses have one number. -/
  numbers : (b.houses.map (·.id)).Nodup
  /-- The houses are those that are drawn, each under its number. -/
  houses : ∀ n h, (w.house? n).map House.bare = some h ↔ ∃ e ∈ b.houses, e.id = n ∧ e.bare = h
  /-- No two tiles have one position. -/
  positions : (b.lots.map (·.1)).Nodup
  /-- The tiles are those that are drawn, and belong to the houses that are drawn for them. -/
  tiles : ∀ p house, w.houseOf? p = some house ↔ (p, house) ∈ b.lots
  /-- The houses of tiles are there. -/
  known : ∀ p n, (p, some n) ∈ b.lots → (w.house? n).isSome
  /-- A house has the tiles that name it, in the order in which they are drawn. -/
  houseTiles : ∀ n h, w.house? n = some h →
    h.tiles = (b.lots.filter fun lot => lot.2 = some n).map (·.1)

/-- The world is as the blueprint says. -/
structure Follows (c : Catalog) (b : Blueprint) (w : World) : Prop extends Charted b w where
  /-- On a tile lies what is made of its entries and stays there, in order. -/
  items : ∀ e ∈ b.tiles, List.Forall₂
    (fun entry id => ∃ t, entry.Makes c t ∧ w.graph.Shows id (t.told e.house))
    (e.placed c) (w.graph.contents (.tile e.position))
  /-- The doors of a house are those that lie on its tiles, in order, and so are its beds. -/
  fixtures : ∀ (f : Fixture) n h, w.house? n = some h →
    f.ofHouse h = (h.tiles.flatMap fun p => w.graph.contents (.tile p)).filter
      fun id => (w.graph.item? id).any f.ofItem

variable {c : Catalog} {b : Blueprint} {w w' : World}

/-- What has been made of entries is there as long as what is shown is shown still. -/
theorem made_kept {g g' : Graph} (hShows : ∀ j t, g.Shows j t → g'.Shows j t)
    {house : Option UInt32} {es : List ItemEntry} {ids : List ItemId}
    (h : List.Forall₂ (fun entry id => ∃ t, entry.Makes c t ∧ g.Shows id (t.told house)) es ids) :
    List.Forall₂ (fun entry id => ∃ t, entry.Makes c t ∧ g'.Shows id (t.told house)) es ids := by
  refine h.imp ?_
  rintro entry id ⟨t, hMakes, hThere⟩
  exact ⟨t, hMakes, hShows id _ hThere⟩

/-- More or less may lie on the tiles and be registered with the houses. -/
theorem Charted.of_same {b' : Blueprint} {f : UInt32 → House → House} (h : Charted b w)
    (hDrawn : b'.houses = b.houses) (hLots : b'.lots = b.lots)
    (hOf : ∀ q, w'.houseOf? q = w.houseOf? q)
    (hHouses : ∀ n, w'.house? n = (w.house? n).map (f n))
    (hBare : ∀ n h, (f n h).bare = h.bare) (hTiles : ∀ n h, (f n h).tiles = h.tiles) :
    Charted b' w' := by
  -- Bare houses and their tiles are what the chart speaks of, and `f` leaves both.
  constructor
  case numbers =>
    rw [hDrawn]
    exact h.numbers
  case houses =>
    intro n house
    rw [hDrawn, ← h.houses n house, hHouses, Option.map_map, show House.bare ∘ f n = House.bare from
      funext (hBare n)]
  case positions =>
    rw [hLots]
    exact h.positions
  case tiles =>
    intro p house
    rw [hLots, hOf]
    exact h.tiles p house
  case known =>
    intro p n hMem
    rw [hLots] at hMem
    rw [hHouses, Option.isSome_map]
    exact h.known p n hMem
  case houseTiles =>
    intro n house hHouse
    rw [hHouses] at hHouse
    obtain ⟨old, hOld, rfl⟩ := Option.map_eq_some_iff.1 hHouse
    rw [hLots, hTiles]
    exact h.houseTiles n old hOld

/-! ## §2. Houses. -/

/-- The empty world follows the empty map. -/
theorem follows_empty (c : Catalog) (name : String) :
    Follows c { name } { catalog := c, name } where
  numbers := List.nodup_nil
  houses n h := by
    refine iff_of_false (fun hNone => ?_) ?_
    · -- No house has been entered and none is on the map, so neither side holds.
      cases hNone
    · rintro ⟨e, hMem, _⟩
      cases hMem
  positions := List.nodup_nil
  tiles p house := by
    refine iff_of_false (fun hNone => ?_) List.not_mem_nil
    cases hNone
  known p n hMem := by cases hMem
  houseTiles n h hHouse := by cases hHouse
  items e hMem := by cases hMem
  fixtures f n h hHouse := by cases hHouse

/-- One more house, before there are tiles: it has none. -/
theorem Follows.addHouse (h : Follows c b w) (hTiles : b.tiles = []) {e : HouseEntry}
    (hNone : w.house? e.id = none) :
    Follows c { b with houses := b.houses ++ [e] }
      { w with houses := w.houses.insert e.id e.bare } := by
  have hHouse : ∀ n, ({ w with houses := w.houses.insert e.id e.bare } : World).house? n
      = if n = e.id then some e.bare else w.house? n :=
    fun n => house?_insert w.houses e.id n e.bare
  have hLots : Blueprint.lots { b with houses := b.houses ++ [e] } = [] := by
    rw [Blueprint.lots, hTiles, List.map_nil]
  -- A number that was entered before would be that of a house by now.
  have hNew : e.id ∉ b.houses.map (·.id) := by
    intro hMem
    obtain ⟨e', hMem', hId⟩ := List.mem_map.1 hMem
    have hThere := (h.houses e.id e'.bare).2 ⟨e', hMem', hId, rfl⟩
    rw [hNone] at hThere
    cases hThere
  -- Without tiles there are no lots, and a new house has neither tiles nor fixtures.
  constructor
  case toCharted =>
    constructor
    case numbers =>
      rw [List.map_append, List.map_singleton, ← List.concat_eq_append]
      exact h.numbers.concat hNew
    case houses =>
      intro n house
      simp only [List.mem_append, List.mem_singleton, or_and_right, exists_or, exists_eq_left]
      rw [← h.houses n house, hHouse]
      by_cases hn : n = e.id
      · subst hn
        rw [if_pos rfl, hNone]
        simp [House.bare, HouseEntry.bare]
      · rw [if_neg hn]
        simp [Ne.symm hn]
    case positions => exact h.positions
    case tiles => exact h.tiles
    case known =>
      intro p n hMem
      rw [hLots] at hMem
      cases hMem
    case houseTiles =>
      intro n house hEntered
      rw [hHouse] at hEntered
      split_ifs at hEntered
      · cases hEntered
        rw [hLots]
        rfl
      · exact h.houseTiles n house hEntered
  case items => exact h.items
  case fixtures =>
    intro f n house hEntered
    rw [hHouse] at hEntered
    split_ifs at hEntered
    · cases hEntered
      cases f <;> rfl
    · exact h.fixtures f n house hEntered

/-- A house that is entered is followed. -/
theorem yields_enterHouse_follows (h : Follows c b w) (hTiles : b.tiles = []) (e : HouseEntry) :
    Yields (w.enterHouse e) (Follows c { b with houses := b.houses ++ [e] }) := by
  unfold enterHouse
  split_ifs with hTwice
  · exact yields_bind (P := fun _ => False) (yields_throw _) fun _ h => h.elim
  · exact yields_pure (h.addHouse hTiles (by simpa using hTwice))

/-! ## §3. Tiles. -/

/-- The tiles of a house once there is another tile. -/
theorem Charted.houseTiles_append (h : Charted b w) {n : UInt32} {house : House}
    (hHouse : w.house? n = some house) (lot : Position × Option UInt32) :
    ((b.lots ++ [lot]).filter fun lot => lot.2 = some n).map (·.1)
      = house.tiles ++ if lot.2 = some n then [lot.1] else [] := by
  rw [List.filter_append, List.map_append, ← h.houseTiles n house hHouse]
  by_cases hn : lot.2 = some n <;> simp [hn]

/-- **One more tile**, with nothing on it. -/
theorem Follows.addTile (h : Follows c b w) {e : TileEntry}
    (hNone : w.graph.tile? e.position = none) (hOpen : Opened w w' e.position e.house) :
    Follows c { b with tiles := b.tiles ++ [{ e with items := [] }] } w' := by
  have hLots : Blueprint.lots { b with tiles := b.tiles ++ [{ e with items := [] }] }
      = b.lots ++ [(e.position, e.house)] := by
    rw [Blueprint.lots, List.map_append]
    rfl
  -- The place is new to the map: a place that it has drawn is a tile by now.
  have hNew : e.position ∉ b.lots.map (·.1) := by
    intro hMem
    obtain ⟨⟨p, house⟩, hMem', hp⟩ := List.mem_map.1 hMem
    have hThere := (h.tiles p house).2 hMem'
    rw [houseOf?, show p = e.position from hp, hNone] at hThere
    cases hThere
  have hShows : ∀ j t, w.graph.Shows j t → w'.graph.Shows j t := fun j t hShows =>
    hShows.of_extends fun k n hn => (hOpen.nodes k).trans hn
  have hItem : ∀ j, w'.graph.item? j = w.graph.item? j := by
    intro j
    rw [Graph.item?, Graph.item?, hOpen.nodes]
  have hEmpty : w.graph.contents (.tile e.position) = [] := by
    rw [Graph.contents, hNone]
    rfl
  constructor
  -- The lots of the map grow by one at the end, and only the house of the tile is written.
  case toCharted =>
    constructor
    case numbers => exact h.numbers
    case houses =>
      intro n house
      have hBare : (House.bare ∘ fun h => if e.house = some n then
          { h with tiles := h.tiles ++ [e.position] } else h) = House.bare := by
        funext h
        rw [Function.comp_apply]
        split_ifs <;> rfl
      rw [← h.houses n house, hOpen.houses, Option.map_map, hBare]
    case positions =>
      rw [hLots, List.map_append, List.map_singleton, ← List.concat_eq_append]
      exact h.positions.concat hNew
    case tiles =>
      intro p house
      rw [hLots, hOpen.houseOf, List.mem_append, List.mem_singleton, Prod.mk.injEq]
      split_ifs with hp
      · have hNot : (p, house) ∉ b.lots := fun hMem =>
          hNew (List.mem_map.2 ⟨(p, house), hMem, hp⟩)
        rw [Option.some_inj, or_iff_right hNot, and_iff_right hp, eq_comm]
      · simp [hp, h.tiles]
    case known =>
      intro q n hMem
      rw [hOpen.houses, Option.isSome_map]
      rw [hLots] at hMem
      rcases List.mem_append.1 hMem with hOld | hLast
      · exact h.known q n hOld
      · rw [List.mem_singleton, Prod.mk.injEq] at hLast
        exact hOpen.known n hLast.2.symm
    case houseTiles =>
      intro n house hHouse
      rw [hOpen.houses] at hHouse
      obtain ⟨old, hOld, rfl⟩ := Option.map_eq_some_iff.1 hHouse
      rw [hLots, h.houseTiles_append hOld]
      split_ifs with hn
      · rfl
      · exact (List.append_nil _).symm
  -- The new tile is empty, and what lies elsewhere is as it was.
  case items =>
    intro e' hMem
    rw [hOpen.contents]
    rcases List.mem_append.1 hMem with hOld | hLast
    · exact made_kept hShows (h.items e' hOld)
    · rw [List.mem_singleton.1 hLast, hEmpty]
      exact .nil
  -- A tile without items adds no fixture to its house.
  case fixtures =>
    intro f n house hHouse
    rw [hOpen.houses] at hHouse
    obtain ⟨old, hOld, rfl⟩ := Option.map_eq_some_iff.1 hHouse
    have hLists := h.fixtures f n old hOld
    simp only [hOpen.contents, hItem]
    split_ifs with hn
    · rw [List.flatMap_append, List.flatMap_singleton, hEmpty, List.append_nil, ← hLists]
      cases f <;> rfl
    · exact hLists

/-! ## §4. Items. -/

section Items

variable {ts : List TileEntry} {e : TileEntry} {es : List ItemEntry} {x : ItemEntry}
  {id : ItemId} {t : ItemTree}

/-- What is registered exists. -/
theorem Follows.registers (h : Follows c b w) : Registers w := by
  intro f n house hHouse d hMem
  rw [h.fixtures f n house hHouse] at hMem
  have hKind := (List.mem_filter.1 hMem).2
  cases hItem : w.graph.item? d with
  | none =>
    rw [hItem] at hKind
    cases hKind
  | some i => rfl

/-- The tiles before the last one are elsewhere. -/
theorem Charted.position_ne (h : Charted { b with tiles := ts ++ [{ e with items := es }] } w)
    {lot : Position × Option UInt32} (hMem : lot ∈ ts.map fun e => (e.position, e.house)) :
    lot.1 ≠ e.position := by
  have hApart := h.positions
  rw [Blueprint.lots, List.map_append, List.map_append, List.nodup_append] at hApart
  exact hApart.2.2 lot.1 (List.mem_map_of_mem hMem) e.position (List.mem_singleton_self _)

/-- An entry of the last tile that is not put there. -/
theorem Follows.passOver (h : Follows c { b with tiles := ts ++ [{ e with items := es }] } w)
    (hNot : x.isPlaced c e.house = false) :
    Follows c { b with tiles := ts ++ [{ e with items := es ++ [x] }] } w := by
  constructor
  case toCharted =>
    refine h.toCharted.of_same (f := fun _ h => h) rfl ?_ (fun _ => rfl) ?_ (fun _ _ => rfl)
      fun _ _ => rfl
    · simp [Blueprint.lots]
    · intro n
      rw [Option.map_id']
  case items =>
    intro e' hMem
    rcases List.mem_append.1 hMem with hOld | hLast
    · exact h.items e' (List.mem_append_left _ hOld)
    · -- What is placed of the last tile is the same with this entry or without it.
      have hSoFar := h.items { e with items := es } List.mem_concat_self
      have hNoMore : TileEntry.placed c { e with items := es ++ [x] }
          = TileEntry.placed c { e with items := es } := by
        simp [TileEntry.placed, List.filter_append, hNot]
      rw [List.mem_singleton.1 hLast, hNoMore]
      exact hSoFar
  case fixtures => exact h.fixtures

/-- What lies on the tiles of a house once one more item lies on the last tile of all. -/
theorem Charted.lying_laid (h : Charted { b with tiles := ts ++ [{ e with items := es }] } w)
    (hLaid : w.graph.Laid w'.graph e.position id t) {n : UInt32} {house : House}
    (hHouse : w.house? n = some house) :
    (house.tiles.flatMap fun p => w'.graph.contents (.tile p))
      = (house.tiles.flatMap fun p => w.graph.contents (.tile p))
        ++ if e.house = some n then [id] else [] := by
  have hLots : Blueprint.lots { b with tiles := ts ++ [{ e with items := es }] }
      = ts.map (fun e => (e.position, e.house)) ++ [(e.position, e.house)] := by
    simp [Blueprint.lots]
  have hBefore : ∀ p ∈ ((ts.map fun e => (e.position, e.house)).filter
      fun lot => lot.2 = some n).map (·.1),
        w'.graph.contents (.tile p) = w.graph.contents (.tile p) := by
    intro p hMem
    obtain ⟨lot, hLot, rfl⟩ := List.mem_map.1 hMem
    exact hLaid.contents_elsewhere (h.position_ne (List.mem_filter.1 hLot).1)
  rw [h.houseTiles n house hHouse, hLots, List.filter_append, List.map_append, List.flatMap_append,
    List.flatMap_append, List.flatMap_congr hBefore, List.append_assoc]
  -- The last tile is the last one of its house.
  by_cases hn : e.house = some n
  · simp [hn, hLaid.contents_here]
  · simp [hn]

/-- **An entry of the last tile of which an item is made and put there.** -/
theorem Follows.addItem (h : Follows c { b with tiles := ts ++ [{ e with items := es }] } w)
    (hw : w.graph.Consistent) (hPlaced : x.isPlaced c e.house = true) (hMakes : x.Makes c t)
    (hLaid : Laid w w' e.position e.house id t) :
    Follows c { b with tiles := ts ++ [{ e with items := es ++ [x] }] } w' := by
  constructor
  case toCharted =>
    refine h.toCharted.of_same rfl (by simp [Blueprint.lots]) hLaid.houseOf hLaid.houses ?_ ?_
    · intro n house
      split_ifs <;> rfl
    · intro n house
      split_ifs <;> rfl
  case items =>
    intro e' hMem
    rcases List.mem_append.1 hMem with hOld | hLast
    · rw [hLaid.graph.contents_elsewhere (h.position_ne (List.mem_map_of_mem hOld))]
      exact made_kept hLaid.graph.old (h.items e' (List.mem_append_left _ hOld))
    · -- On the last tile one tree more is placed; on the others the items are as they were.
      have hSoFar := h.items { e with items := es } List.mem_concat_self
      have hOneMore : TileEntry.placed c { e with items := es ++ [x] }
          = TileEntry.placed c { e with items := es } ++ [x] := by
        simp [TileEntry.placed, List.filter_append, hPlaced]
      rw [List.mem_singleton.1 hLast, hOneMore, hLaid.graph.contents_here]
      exact List.rel_append (made_kept hLaid.graph.old hSoFar)
        (.cons ⟨t, hMakes, hLaid.graph.shows⟩ .nil)
  case fixtures =>
    intro f n house hHouse
    rw [hLaid.houses] at hHouse
    obtain ⟨old, hOld, rfl⟩ := Option.map_eq_some_iff.1 hHouse
    have hLying := h.toCharted.lying_laid hLaid.graph hOld
    -- Those that lay there before are doors and beds as they were.
    have hBefore : ((old.tiles.flatMap fun p => w.graph.contents (.tile p)).filter
        fun id => (w'.graph.item? id).any f.ofItem) = f.ofHouse old := by
      rw [h.fixtures f n old hOld]
      refine List.filter_congr ?_
      intro d hMem
      obtain ⟨q, _, hLies⟩ := List.mem_flatMap.1 hMem
      rw [hLaid.graph.item?_eq hw hLies]
    -- The new item goes to the list of its kind, as the record of the house says.
    have hNew : (w'.graph.item? id).any f.ofItem = f.ofItem t.item := by
      rw [hLaid.graph.shows.item?_eq]
      cases t with
      | node i trees => exact f.ofItem_told e.house i
    split_ifs with hn
    · rw [if_pos hn] at hLying
      rw [f.ofHouse_taking, show (old.taking id t.item).tiles = old.tiles from rfl, hLying,
        List.filter_append, hBefore, List.filter_singleton, hNew, Bool.cond_eq_ite]
    · rw [hLying, if_neg hn, List.append_nil, hBefore]

/-- The next entry of the last tile. -/
theorem yields_enterItem_follows (hDrawn : Drawn c w)
    (h : Follows c { b with tiles := ts ++ [{ e with items := es }] } w) (x : ItemEntry) :
    Yields (enterItem e.position e.house w x)
      (Follows c { b with tiles := ts ++ [{ e with items := es ++ [x] }] }) := by
  obtain ⟨p, house, items⟩ := e
  unfold enterItem
  rw [hDrawn.catalog]
  refine yields_bind ((yields_build c x).and (yields_build_gives c x)) ?_
  rintro o ⟨hTree, hGives⟩
  -- What cannot be made is passed over on the map too.
  cases o with
  | none =>
    have hNot : x.sketch.isConstructible c = false := hGives
    refine yields_pure (h.passOver ?_)
    rw [ItemEntry.isPlaced, hNot, Bool.false_and]
  | some tree =>
    have hMakes : x.Makes c tree := hGives
    have hKnown : ∀ n, house = some n → (w.house? n).isSome := by
      rintro n rfl
      refine h.known p n ?_
      simp [Blueprint.lots]
    -- What is placed comes to lie behind the others.
    have hPut : x.isPlaced c house = true → Yields (w.enterTree p house tree) (Follows c
        { b with tiles := ts ++ [{ position := p, house, items := es ++ [x] }] }) := by
      intro hPlaced
      refine (yields_enterTree_laid hDrawn h.registers (hTree tree rfl) hKnown).imp ?_
      rintro w' ⟨id, hLaid⟩
      exact h.addItem hDrawn.consistent hPlaced hMakes hLaid
    cases house with
    | none => exact hPut (by rw [ItemEntry.isPlaced, hMakes.isConstructible]; rfl)
    | some number =>
      have hPlaced : x.isPlaced c (some number) = !w.isMoveable tree := by
        rw [ItemEntry.isPlaced, hMakes.isConstructible, hMakes.isMoveable_eq hDrawn.catalog]
        rfl
      dsimp only
      -- On a tile of a house, what moves is not placed.
      split_ifs with hMoves
      · refine yields_bind yields_any fun _ _ => yields_bind yields_any fun _ _ => ?_
        exact yields_pure (h.passOver (by rw [hPlaced, hMoves]; rfl))
      · exact hPut (by rw [hPlaced, Bool.eq_false_iff.2 hMoves]; rfl)

end Items

/-- **One more tile with all that lies on it.** -/
theorem yields_enterTile_follows (hDrawn : Drawn c w) (h : Follows c b w) (e : TileEntry) :
    Yields (w.enterTile e) (Follows c { b with tiles := b.tiles ++ [e] }) := by
  unfold enterTile
  split_ifs with hTwice
  · exact yields_bind (P := fun _ => False) (yields_throw _) fun _ h => h.elim
  · have hNone : w.graph.tile? e.position = none := by simpa using hTwice
    obtain ⟨hNew, hTile⟩ := hDrawn.ensureTile hNone
    refine yields_bind yields_any fun _ _ => ?_
    refine yields_bind ((yields_claimTile hNew hTile e.house).and
      ((yields_claimTile_opened hDrawn hNone e.house).imp fun _ hOpen => h.addTile hNone hOpen)) ?_
    intro w' hw'
    -- The entries of the tile come one by one; with all of them the tile is the one drawn.
    refine (yields_foldlM_done (P := fun es w =>
      (Drawn c w ∧ w.houseOf? e.position = some e.house)
        ∧ Follows c { b with tiles := b.tiles ++ [{ e with items := es }] } w)
      ?_ e.items [] hw').imp fun _ hDone => hDone.2
    intro es w'' x hw''
    exact (yields_enterItem x hw''.1).and (yields_enterItem_follows hw''.1.1 hw''.2 x)

/-! ## §5. Blueprints. -/

/-- A world that is built follows its map. -/
theorem follows_ofBlueprint (h : (ofBlueprint c b).1 = .ok w) : Follows c b w := by
  -- The map as far as it has been read: these houses, and these tiles.
  have hBoth : Drawn c w ∧ Follows c { b with houses := b.houses, tiles := b.tiles } w := by
    refine ofBlueprint_induction_done
      (P := fun hs ts w => Drawn c w ∧ Follows c { b with houses := hs, tiles := ts } w)
      ⟨drawn_empty c b.name, follows_empty c b.name⟩ ?_ ?_ h
    · intro hs w e hw
      exact (yields_enterHouse hw.1 e).and (yields_enterHouse_follows hw.2 rfl e)
    · intro ts w e hw
      exact (yields_enterTile hw.1 e).and (yields_enterTile_follows hw.1 hw.2 e)
  exact hBoth.2

/-- What lies on a tile is made of an entry of the tile. -/
theorem Follows.exists_entry (h : Follows c b w) {e : TileEntry} (he : e ∈ b.tiles) {d : ItemId}
    (hMem : d ∈ w.graph.contents (.tile e.position)) :
    ∃ (entry : ItemEntry) (t : ItemTree), entry.Makes c t ∧ w.graph.Shows d (t.told e.house) := by
  have hAll := h.items e he
  obtain ⟨k, hk, rfl⟩ := List.getElem_of_mem hMem
  have hk' : k < (e.placed c).length := by
    rw [hAll.length_eq]
    exact hk
  exact ⟨_, hAll.get hk' hk⟩

/-- **A door of a house knows the house**, and so does a bed. -/
theorem Follows.house?_eq (h : Follows c b w) {f : Fixture} {n : UInt32} {house : House}
    (hHouse : w.house? n = some house) {d : ItemId} (hMem : d ∈ f.ofHouse house) :
    ∃ i, w.graph.item? d = some i ∧ f.ofItem i = true ∧ i.variant.house? = some n := by
  rw [h.fixtures f n house hHouse] at hMem
  obtain ⟨hLies, hKind⟩ := List.mem_filter.1 hMem
  obtain ⟨p, hTile, hLies⟩ := List.mem_flatMap.1 hLies
  -- The tile names the house, and what lies there has been told so.
  rw [h.houseTiles n house hHouse] at hTile
  obtain ⟨lot, hLot, rfl⟩ := List.mem_map.1 hTile
  obtain ⟨hLot, hOwn⟩ := List.mem_filter.1 hLot
  obtain ⟨e, he, rfl⟩ := List.mem_map.1 hLot
  obtain ⟨entry, t, _, hShows⟩ := h.exists_entry he hLies
  rw [show e.house = some n from of_decide_eq_true hOwn] at hShows
  rw [hShows.item?_eq] at hKind
  obtain ⟨i, trees⟩ := t
  have hStands : f.ofItem (i.told (some n)) = true := hKind
  refine ⟨i.told (some n), hShows.item?_eq, hStands, ?_⟩
  rw [f.ofItem_told] at hStands
  exact Fixture.house?_told hStands n

/-- **A blueprint is built as it is drawn.**  If it can be built, the world follows it: the houses
and the tiles are those drawn; a house has the tiles that name it, in order; on a tile lies, in
order, what is made of its entries, without what moves if it is the tile of a house; the doors of a
house and its beds are those on its tiles, in order.  All of them know the house.  Links and lists
agree.  The report has the number of tiles, of entries that are constructible with all that they lie
in, of entries that are not and lie in such as are, and of entries left out because they move. -/
theorem built_as_drawn (h : (ofBlueprint c b).1 = .ok w) :
    Follows c b w
      ∧ (∀ (f : Fixture) n house, w.house? n = some house → ∀ d ∈ f.ofHouse house,
        ∃ i, w.graph.item? d = some i ∧ f.ofItem i = true ∧ i.variant.house? = some n)
      ∧ w.graph.Consistent
      ∧ (ofBlueprint c b).2.report = Blueprint.account c b.tiles := by
  have hFollows := follows_ofBlueprint h
  refine ⟨hFollows, ?_, (drawn_ofBlueprint h).consistent, report_ofBlueprint h⟩
  intro f n house hHouse d hMem
  exact hFollows.house?_eq hHouse hMem

/-- Doors, beds, chests, coins that move, and lamps that are not in use any more. -/
def streetCatalog : Catalog :=
  (Catalog.ofTypes [{ id := 200, group := .door }, { id := 300, group := .bed },
    { id := 110, group := .chest }, { id := 10, moveable := true },
    { id := 50, group := .deprecated }]).toOption.getD .empty

/-- A house with a door, a bed and a coin on one tile and a chest on another one, and a tile outside
with a coin and a lamp.  In the chest are a coin, a lamp, and a coin in the lamp. -/
def street : Blueprint where
  houses := [{ id := 1, name := "", entry := .zero }]
  tiles := [⟨.zero, some 1, [.mk { typeId := 200 } [], .mk { typeId := 300 } [],
      .mk { typeId := 10 } []]⟩,
    ⟨⟨1, 0, 0⟩, some 1, [.mk { typeId := 110 } [.mk { typeId := 10 } [],
      .mk { typeId := 50 } [.mk { typeId := 10 } []]]]⟩,
    ⟨⟨2, 0, 0⟩, none, [.mk { typeId := 10 } [], .mk { typeId := 50 } []]⟩]

/-- The world of that blueprint. -/
def streetWorld : World :=
  (ofBlueprint streetCatalog street).1.toOption.getD {}

/-- The coin in the house is made and left out; the one in the lamp is neither made nor counted. -/
theorem built_as_drawn_street :
    (ofBlueprint streetCatalog street).1 = .ok streetWorld
      ∧ Follows streetCatalog street streetWorld
      ∧ (ofBlueprint streetCatalog street).2.report
        = { tiles := 3, items := 6, unknown := 2, dropped := 1 } := by
  have hBuilds : (ofBlueprint streetCatalog street).1.toOption.isSome = true := by
    decide +kernel
  have hBuilt : (ofBlueprint streetCatalog street).1 = .ok streetWorld := by
    unfold streetWorld
    exact eq_ok_of_isSome (ofBlueprint streetCatalog street).1 ({} : World) hBuilds
  -- That the build succeeds is computed; what the world is like is read off the general theorem.
  obtain ⟨hFollows, _, _, hReport⟩ := built_as_drawn hBuilt
  have hAccount : Blueprint.account streetCatalog street.tiles
      = { tiles := 3, items := 6, unknown := 2, dropped := 1 } := by
    decide +kernel
  exact ⟨hBuilt, hFollows, hReport.trans hAccount⟩

end World

end Homestead
