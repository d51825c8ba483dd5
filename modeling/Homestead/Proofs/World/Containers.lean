/-
  Homestead.Proofs.World.Containers
  ─────────────────────────────────
  **WHAT BECOMES OF CONTAINERS THAT DO NOT MOVE.**

  A blueprint may put things into a container, and they lie in it again
  whenever the world is built.  A container that has something in it is
  saved, and what is saved takes the place of what the blueprint puts in:
  so it comes back as it was left.  One that has been emptied is not saved,
  unless it can be written on, and so it is filled again.

  Main results:
    * `Refurnished` — what the row of a tile does to the fixtures there;
    * `Awaiting.furnish` — all rows of a world;
    * `containers_come_back` — saving, and loading after a restart;
    * `emptied_chest_refills` — a chest that is not as it was left.
-/
import Homestead.Proofs.World.Furnished

namespace Homestead

/-- Whether items of a type can be written on. -/
def Catalog.isWritable (c : Catalog) (typeId : TypeId) : Bool :=
  ((c.get? typeId).map (·.writable)).getD false

/-- Trees of one item each, which are of one type. -/
theorem ItemTree.sameType_of_empty {t u : ItemTree} (ht : t.contents = []) (hu : u.contents = [])
    (hType : u.item.typeId = t.item.typeId) : t.Related Item.SameType u := by
  obtain ⟨i, _⟩ := t
  obtain ⟨j, _⟩ := u
  obtain rfl := ht
  obtain rfl := hu
  exact ⟨hType, trivial⟩

namespace World

/-! ## §1. One tile. -/

/-- What is saved of a tile has come back to the fixtures there. -/
structure Refurnished (w : World) (before after : Graph) (p : Position) : Prop where
  /-- The fixtures lie on the tile. -/
  there : ∀ id ∈ before.contents (.tile p), id ∈ after.contents (.tile p)
  /-- A container whose type a saved tree has shows that tree. -/
  given : ∀ id ∈ before.contents (.tile p), ∀ t ∈ w.savedTrees p,
    before.typeId? id = some t.item.typeId → t.item.isContainer = true →
    ∃ u, after.Shows id u ∧ t.Related Item.SameType u
  /-- A fixture whose type no saved tree has is left alone. -/
  left : ∀ id ∈ before.contents (.tile p),
    (∀ t ∈ w.savedTrees p, before.typeId? id ≠ some t.item.typeId) → before.LeftAlone after id

section Tile

variable {w : World} {g g₁ g₂ : Graph} {p : Position}

/-- A tile of which nothing is saved. -/
theorem Refurnished.skip (hNone : w.savedTrees p = []) (hSame : g.SameTile g₁ p) :
    Refurnished w g g₁ p where
  there id hid := by
    rw [hSame.contents]
    exact hid
  given id _ t ht := by
    rw [hNone] at ht
    exact absurd ht List.not_mem_nil
  left id hid _ := hSame.leftAlone id hid

/-- Before the row of the tile other rows have left it alone. -/
theorem Refurnished.after (h : Refurnished w g₁ g₂ p) (hSame : g.SameTile g₁ p) :
    Refurnished w g g₂ p := by
  -- Seen from before, the tile has the same items, with the same types.
  have hMem : ∀ id ∈ g.contents (.tile p), id ∈ g₁.contents (.tile p) := by
    intro id hid
    rw [hSame.contents]
    exact hid
  have hTypes : ∀ id ∈ g.contents (.tile p), g₁.typeId? id = g.typeId? id :=
    fun id hid => Graph.typeId?_of_item? (hSame.leftAlone id hid).item?_eq
  constructor
  case there => exact fun id hid => h.there id (hMem id hid)
  case given =>
    intro id hid t ht hType
    rw [← hTypes id hid] at hType
    exact h.given id (hMem id hid) t ht hType
  case left =>
    intro id hid hFree
    rw [← hTypes id hid] at hFree
    exact (hSame.leftAlone id hid).trans (h.left id (hMem id hid) hFree)

/-- The rows after the row of the tile leave it alone. -/
theorem Refurnished.before (h : Refurnished w g g₁ p) (hSame : g₁.SameTile g₂ p) :
    Refurnished w g g₂ p := by
  constructor
  case there =>
    intro id hid
    rw [hSame.contents]
    exact h.there id hid
  case given =>
    intro id hid t ht hType hHolds
    obtain ⟨u, hShows, hRelated⟩ := h.given id hid t ht hType hHolds
    -- The tree that it was given is left alone, too.
    exact ⟨u, hShows.leftAlone (hSame.leftAlone id (h.there id hid)), hRelated⟩
  case left =>
    intro id hid hFree
    exact (h.left id hid hFree).trans (hSame.leftAlone id (h.there id hid))

/-- The trees that are saved of a tile fit the fixtures there. -/
abbrev Fits (w : World) (g : Graph) (p : Position) : Prop :=
  Fitting w g (g.contents (.tile p)) (w.savedTrees p)

/-- What fits a tile fits it as long as the tile is left alone. -/
theorem Fits.of_sameTile (h : Fits w g p) (hSame : g.SameTile g₁ p) : Fits w g₁ p := by
  -- The condition is one on the types alone, which stay.
  have hTypes : (g₁.contents (.tile p)).map g₁.typeId? = (g.contents (.tile p)).map g.typeId? := by
    rw [hSame.contents]
    exact List.map_congr_left fun id hid =>
      Graph.typeId?_of_item? (hSame.leftAlone id hid).item?_eq
  constructor
  case distinct =>
    rw [hTypes]
    exact h.distinct
  case types =>
    rw [hTypes]
    exact h.types

end Tile

/-! ## §2. All rows. -/

section Tiles

variable {w : World} {tile : UInt32 × Position} {tiles : List (UInt32 × Position)}
  {s s' : Restoring}

/-- Rows have furnished tiles, and have left others alone. -/
structure Furnishes (w : World) (tiles : List (UInt32 × Position)) (s s' : Restoring) : Prop where
  /-- The tiles are furnished. -/
  tile : ∀ tile ∈ tiles, Refurnished w s.world.graph s'.world.graph tile.2
  /-- Other tiles are as before. -/
  elsewhere : ∀ q, q ∉ tiles.map (·.2) → s.world.graph.SameTile s'.world.graph q

/-- **A row furnishes its tile**, and the others are still to come. -/
theorem Awaiting.furnishRow (h : Awaiting w (tile :: tiles) s)
    (hReturnable : w.Returnable tile.2) (hFits : Fits w s.world.graph tile.2) :
    ∃ s₁, Restoring.restoreRow s
          { house := tile.1, data := tileOctets w.catalog tile.2 (w.savedTrees tile.2) } = s₁
      ∧ Awaiting w tiles s₁
      ∧ Refurnished w s.world.graph s₁.world.graph tile.2
      ∧ ∀ q, q ≠ tile.2 → s.world.graph.SameTile s₁.world.graph q := by
  obtain ⟨s₁, hRestore, hBack, hFurnished⟩ := restoreRow_furnishes tile.1 tile.2
    (w.savedTrees tile.2) hReturnable.returns hReturnable.shallow hReturnable.counted h.sound
    h.catalog (h.there tile List.mem_cons_self) (h.untouched tile List.mem_cons_self) hFits
  have hConfined := hBack.confined _ (h.sound.consistent.region_around _)
    fun id hid => .inr ⟨id, hid, .refl⟩
  refine ⟨s₁, hRestore, h.next hBack.returning hConfined, ?_, ?_⟩
  · exact ⟨fun id hid => hBack.returning.mem_contents hid, hFurnished.given,
      fun id hid hFree => (hFurnished.left id hid hFree).2⟩
  · exact fun q hq => h.sound.sameTile hConfined.toSpared hq

/-- **All rows furnish their tiles.** -/
theorem Awaiting.furnish (h : Awaiting w tiles s)
    (hReturnable : ∀ tile ∈ tiles, w.Returnable tile.2)
    (hFits : ∀ tile ∈ tiles, Fits w s.world.graph tile.2) :
    Furnishes w tiles s ((tiles.filterMap w.tileRow?).foldl Restoring.restoreRow s) := by
  induction tiles generalizing s with
  | nil => exact ⟨fun tile hTile => absurd hTile List.not_mem_nil, fun q _ => .refl _ q⟩
  | cons tile tiles ih =>
    obtain ⟨hFirst, hOthers⟩ := List.forall_mem_cons.1 hReturnable
    obtain ⟨hFitsFirst, hFitsOthers⟩ := List.forall_mem_cons.1 hFits
    have hNew := (List.nodup_cons.1 h.distinct).1
    cases hRow : w.tileRow? tile with
    | none =>
      rw [List.filterMap_cons_none hRow]
      obtain ⟨hTiles, hElsewhere⟩ := ih h.tail hOthers hFitsOthers
      refine ⟨List.forall_mem_cons.2 ⟨?_, hTiles⟩, ?_⟩
      · exact .skip (tileRow?_eq_none.1 hRow) (hElsewhere tile.2 hNew)
      · intro q hq
        rw [List.map_cons, List.mem_cons, not_or] at hq
        exact hElsewhere q hq.2
    | some row =>
      obtain ⟨_, rfl⟩ := tileRow?_eq_some.1 hRow
      obtain ⟨s₁, hRestore, hThen, hHere, hApart⟩ := h.furnishRow hFirst hFitsFirst
      -- The row leaves the tiles alone to which rows are still to come.
      have hOther : ∀ tile' ∈ tiles, s.world.graph.SameTile s₁.world.graph tile'.2 := by
        intro tile' hMem
        refine hApart tile'.2 ?_
        intro hEq
        exact hNew (List.mem_map.2 ⟨tile', hMem, hEq⟩)
      rw [List.filterMap_cons_some hRow, List.foldl_cons, hRestore]
      obtain ⟨hTiles, hElsewhere⟩ := ih hThen hOthers fun tile' hMem =>
        (hFitsOthers tile' hMem).of_sameTile (hOther tile' hMem)
      refine ⟨List.forall_mem_cons.2 ⟨hHere.before (hElsewhere tile.2 hNew), ?_⟩, ?_⟩
      · exact fun tile' hMem => (hTiles tile' hMem).after (hOther tile' hMem)
      · intro q hq
        rw [List.map_cons, List.mem_cons, not_or] at hq
        exact (hApart q hq.1).trans (hElsewhere q hq.2)

end Tiles

/-! ## §3. What is saved of fixtures. -/

section Saved

variable {w : World} {p : Position} {id : ItemId} {t : ItemTree}

/-- What shows a tree is of the type of its root. -/
theorem typeId?_of_shows {g : Graph} (h : g.Shows id t) : g.typeId? id = some t.item.typeId := by
  rw [Graph.typeId?, h.item?_eq, Option.map_some]

/-- What shows a tree moves if the tree does. -/
theorem moves_of_shows {g : Graph} (h : g.Shows id t) :
    g.moves w.catalog id = w.isMoveable t := by
  rw [Graph.moves, typeId?_of_shows h, Option.any_some, isMoveable]

/-- The trees that do not move are those of the items that do not move. -/
theorem types_of_showsAll {g : Graph} {ids : List ItemId} {ts : List ItemTree}
    (h : g.ShowsAll ids ts) :
    (ts.filter fun t => !w.isMoveable t).map (fun t => some t.item.typeId)
      = (ids.filter fun id => !g.moves w.catalog id).map g.typeId? := by
  -- By induction on the trees; an item moves if the tree that it shows does.
  induction ts generalizing ids with
  | nil =>
    cases ids with
    | nil => rfl
    | cons id ids => exact h.elim
  | cons t ts ih =>
    cases ids with
    | nil => exact h.elim
    | cons id ids =>
      obtain ⟨hFirst, hRest⟩ := h
      rw [List.filter_cons, List.filter_cons, moves_of_shows hFirst]
      cases w.isMoveable t with
      | true => exact ih hRest
      | false =>
        show some t.item.typeId :: _ = g.typeId? id :: _
        rw [typeId?_of_shows hFirst, ih hRest]

/-- Where nothing moves all items are fixtures. -/
theorem Untouched.fixtures_eq (h : w.Untouched p) :
    w.graph.fixtures w.catalog p = w.graph.contents (.tile p) := by
  -- The fixtures are what is left when all that moves is filtered out.
  refine List.filter_eq_self.2 ?_
  intro id hid
  rw [Graph.moves, Graph.typeId?]
  cases hi : w.graph.item? id with
  | none => rfl
  | some i =>
    rw [Option.map_some, Option.any_some]
    cases hType : w.catalog.get? i.typeId with
    | none => rfl
    | some ty =>
      rw [Option.map_some, Option.getD_some, h.stays id hid i hi ty hType]
      rfl

/-- What does not move on a tile was there before, and of its type. -/
theorem Untouched.fixture {w' : World} (h : w.Untouched p) (hw' : w'.Sound)
    (hSame : Graph.SameFixtures w.catalog w.graph w'.graph)
    (hid : id ∈ w'.graph.contents (.tile p)) (ht : w'.graph.tree? id = some t)
    (hStays : w.isMoveable t = false) :
    id ∈ w.graph.contents (.tile p) ∧ w.graph.typeId? id = some t.item.typeId := by
  have hShows := hw'.consistent.tree?_eq_some_iff.1 ht
  -- It is a fixture now, and the fixtures of the tile are the same.
  have hFixture : id ∈ w'.graph.fixtures w.catalog p := by
    refine List.mem_filter.2 ⟨hid, ?_⟩
    rw [moves_of_shows hShows, hStays]
    rfl
  rw [hSame.list p] at hFixture
  constructor
  · rw [← h.fixtures_eq]
    exact hFixture
  · rw [← hSame.typeId? p id hFixture]
    exact typeId?_of_shows hShows

/-- **The trees that are saved of a tile fit the fixtures that it was built with**, if they are the
same still and no two of them are of one type. -/
theorem Untouched.fits {w' : World} (h : w.Untouched p) (hw' : w'.Sound)
    (hCatalog : w'.catalog = w.catalog)
    (hSame : Graph.SameFixtures w.catalog w.graph w'.graph)
    (hDistinct : ((w.graph.contents (.tile p)).map w.graph.typeId?).Nodup) :
    Fits w' w.graph p := by
  have hTypes : ((w'.treesOn p).filter fun t => !w'.isMoveable t).map (fun t => some t.item.typeId)
      = (w.graph.contents (.tile p)).map w.graph.typeId? := by
    rw [types_of_showsAll (hw'.shows_treesOn p), hCatalog]
    show (w'.graph.fixtures w.catalog p).map w'.graph.typeId? = _
    rw [hSame.list p, ← h.fixtures_eq]
    exact List.map_congr_left (hSame.typeId? p)
  refine ⟨hDistinct, ?_⟩
  rw [← hTypes, savedTrees_eq]
  exact ((List.filter_sublist).filter _).map _

/-- What is not saved leaves nothing saved of its type. -/
theorem Untouched.typeId?_ne {w' : World} (h : w.Untouched p) (hw' : w'.Sound)
    (hCatalog : w'.catalog = w.catalog)
    (hSame : Graph.SameFixtures w.catalog w.graph w'.graph) (hFits : Fits w' w.graph p)
    (hid : id ∈ w'.graph.contents (.tile p)) (ht : w'.graph.tree? id = some t)
    (hStays : w.isMoveable t = false) (hNot : t.isSaved w.catalog = false) :
    ∀ u ∈ w'.savedTrees p, w.graph.typeId? id ≠ some u.item.typeId := by
  obtain ⟨hFixture, hType⟩ := h.fixture hw' hSame hid ht hStays
  intro u hu hSameType
  obtain ⟨hOnTile, hSaved⟩ := List.mem_filter.1 hu
  obtain ⟨id', hid', ht'⟩ := List.mem_filterMap.1 hOnTile
  have hEqual : u.item.typeId = t.item.typeId := Option.some_inj.1 (hSameType.symm.trans hType)
  -- The other one would not move either, and would be the same fixture.
  have hStaysToo : w.isMoveable u = false := (isMoveable_of_typeId hEqual).trans hStays
  obtain ⟨hFixture', hType'⟩ := h.fixture hw' hSame hid' ht' hStaysToo
  obtain rfl := hFits.eq_of_typeId? hFixture' hFixture (hType'.trans hSameType.symm)
  obtain rfl := Option.some_inj.1 (ht.symm.trans ht')
  rw [hCatalog, hNot] at hSaved
  cases hSaved

/-- **A container that does not move is saved if it can be written on or has something in it.** -/
theorem isSaved_container (hHolds : t.item.isContainer = true) (hStays : w.isMoveable t = false) :
    t.isSaved w.catalog = (w.catalog.isWritable t.item.typeId || !t.contents.isEmpty) := by
  -- Doors and beds are saved anyway, and a container is neither.
  obtain ⟨hDoor, hBed⟩ : t.item.isDoor = false ∧ t.item.isBed = false :=
    Variant.plain_of_isContainer hHolds
  unfold ItemTree.isSaved Catalog.isWritable
  rw [isMoveable] at hStays
  rw [hDoor, hBed, hHolds, Bool.or_false, Bool.or_false, Bool.true_and]
  cases hType : w.catalog.get? t.item.typeId with
  | none => rfl
  | some ty =>
    rw [hType] at hStays
    have hMoveable : ty.moveable = false := hStays
    rw [Option.map_some, Option.map_some, Option.getD_some, Option.getD_some, hMoveable,
      Bool.false_or]

end Saved

/-! ## §4. A restart. -/

/-- **A container that does not move is as it was left after a restart**, with the same types of
items in it in the same order, whatever the blueprint puts into it, if it had something in it or can
be written on, or if the blueprint puts nothing into it.  One that was empty and cannot be written
on is as the blueprint has it.  All of this holds as long as what happened to the items was that new
ones were made and that ones that move were put somewhere, taken out or moved. -/
theorem containers_come_back {c : Catalog} {b : Blueprint} {w : World} {a a' : Archive}
    {report : SaveReport} (actions : List Graph.Action) (hBuilt : (ofBlueprint c b).1 = .ok w)
    (hHandling : w.graph.isHandling c actions = true)
    (hDistinct : ∀ tile ∈ w.houseTiles,
      ((w.graph.contents (.tile tile.2)).map w.graph.typeId?).Nodup)
    (hKnown : ∀ tile ∈ w.houseTiles, ∀ t ∈ (w.afterActions actions).treesOn tile.2,
      t.Every fun i _ => (c.usable? i.typeId).isSome ∧ i.Unspent c)
    (hNesting : ∀ tile ∈ w.houseTiles, ∀ t ∈ (w.afterActions actions).treesOn tile.2,
      t.nesting ≤ Record.maxDepth)
    (hLimited : a.Limited) (hSaved : (w.afterActions actions).saveItems a = .ok (report, a'))
    (hRead : a'.declines .tileRows = none) :
    ∃ loaded, w.loadItems a' = .ok loaded
      ∧ ∀ tile ∈ w.houseTiles, ∀ id ∈ (w.afterActions actions).graph.contents (.tile tile.2),
        ∀ t, (w.afterActions actions).graph.tree? id = some t →
        w.isMoveable t = false → t.item.isContainer = true →
        id ∈ loaded.world.graph.contents (.tile tile.2)
        ∧ ∃ t₀ t', w.graph.tree? id = some t₀ ∧ loaded.world.graph.tree? id = some t'
          ∧ (t.contents ≠ [] ∨ c.isWritable t.item.typeId = true ∨ t₀.contents = [] →
            t.Related Item.SameType t')
          ∧ (t.contents = [] → c.isWritable t.item.typeId = false → t' = t₀) := by
  have hDrawn := drawn_ofBlueprint hBuilt
  obtain rfl := hDrawn.catalog
  obtain ⟨loaded, hLoaded, hWorld, _, hLength, hAwaiting⟩ :=
    restart hBuilt hLimited hSaved rfl hRead
  have hAfter := hDrawn.sound.afterActions actions
  have hSame : Graph.SameFixtures w.catalog w.graph (w.afterActions actions).graph :=
    Graph.sameFixtures_run hDrawn.sound.consistent actions hHandling
  have hFits : ∀ tile ∈ w.houseTiles, Fits (w.afterActions actions) w.graph tile.2 :=
    fun tile hMem => (hDrawn.untouched hMem).fits hAfter rfl hSame (hDistinct tile hMem)
  have hFurnishes := hAwaiting.furnish (fun tile hMem =>
    hAfter.returnable hMem hLength (hKnown tile hMem) (hNesting tile hMem)) hFits
  obtain ⟨hSoundAgain, _, _⟩ :=
    restoreRows_tileRows hAfter hDrawn.sound rfl hAwaiting.there hLength
  rw [← hWorld] at hSoundAgain
  refine ⟨loaded, hLoaded, ?_⟩
  intro tile hTile id hid t ht hStays hHolds
  have hUntouched := hDrawn.untouched hTile
  have hRefurnished : Refurnished (w.afterActions actions) w.graph loaded.world.graph tile.2 := by
    rw [hWorld, restoreRows, tileRows_eq]
    exact hFurnishes.tile tile hTile
  obtain ⟨hFixture, hType⟩ := hUntouched.fixture hAfter hSame hid ht hStays
  obtain ⟨n, hn, _⟩ := hDrawn.sound.consistent.linked _ _ hFixture
  obtain ⟨t₀, ht₀⟩ := hDrawn.sound.consistent.tree?_isSome (by rw [hn]; rfl)
  refine ⟨hRefurnished.there id hFixture, t₀, ?_⟩
  have hSavedIff := isSaved_container hHolds hStays
  cases hKept : t.isSaved w.catalog with
  | true =>
    -- It is saved, and shows the tree that was saved of it.
    have hMem : t ∈ (w.afterActions actions).savedTrees tile.2 :=
      List.mem_filter.2 ⟨List.mem_filterMap.2 ⟨id, hid, ht⟩, hKept⟩
    obtain ⟨u, hShown, hRelated⟩ := hRefurnished.given id hFixture t hMem hType hHolds
    refine ⟨u, ht₀, hSoundAgain.consistent.tree?_eq_some_iff.2 hShown, fun _ => hRelated, ?_⟩
    intro hEmpty hNot
    rw [hKept, hEmpty, hNot] at hSavedIff
    cases hSavedIff
  | false =>
    -- It is not, and so it is left alone.
    have hAlone := hRefurnished.left id hFixture
      (hUntouched.typeId?_ne hAfter rfl hSame (hFits tile hTile) hid ht hStays hKept)
    have hShows₀ := hDrawn.sound.consistent.tree?_eq_some_iff.1 ht₀
    rw [hKept] at hSavedIff
    obtain ⟨hNot, hEmpty⟩ := Bool.or_eq_false_iff.1 hSavedIff.symm
    have hNil : t.contents = [] := by simpa using hEmpty
    refine ⟨t₀, ht₀, hSoundAgain.consistent.tree?_eq_some_iff.2 (hShows₀.leftAlone hAlone), ?_,
      fun _ _ => rfl⟩
    rintro (hNonempty | hWritable | hNothing)
    · exact absurd hNil hNonempty
    · rw [hNot] at hWritable
      cases hWritable
    · -- Both trees are the container alone, which is of the type that it had.
      have hOwn := Option.some_inj.1 ((typeId?_of_shows hShows₀).symm.trans hType)
      exact ItemTree.sameType_of_empty hNil hNothing hOwn

/-! ## §5. A chest with a coin in it. -/

/-- A catalog of two types: chests, which stay where they are, and coins, which move. -/
def coinCatalog : Catalog where
  types := chestCatalog.types.insert 3 { id := 3, moveable := true }
  keyed := chestCatalog.keyed_insert { id := 3, moveable := true }

/-- A house of one tile with a chest on it that has a coin in it. -/
def coinHouse : Blueprint where
  houses := [{ id := 1, name := "", entry := .zero }]
  tiles := [{
    position := .zero
    house := some 1
    items := [.mk { typeId := 2 } [.mk { typeId := 3 } []]] }]

/-- The world of that house: the chest has the number zero, and the coin the number one. -/
def coinWorld : World :=
  (ofBlueprint coinCatalog coinHouse).1.toOption.getD {}

theorem ofBlueprint_coinHouse : (ofBlueprint coinCatalog coinHouse).1 = .ok coinWorld := by
  have hBuilds : (ofBlueprint coinCatalog coinHouse).1.toOption.isSome = true := by
    decide +kernel
  unfold coinWorld
  exact eq_ok_of_isSome (ofBlueprint coinCatalog coinHouse).1 ({} : World) hBuilds

theorem coinWorld_distinct : ∀ tile ∈ coinWorld.houseTiles,
    ((coinWorld.graph.contents (.tile tile.2)).map coinWorld.graph.typeId?).Nodup := by
  decide +kernel

/-- Another coin is put into the chest. -/
def fillingActions : List Graph.Action :=
  [.create 3 0, .add (.item 0) 2]

/-- That world once it is saved. -/
def savedFilled : SaveReport × Archive :=
  ((coinWorld.afterActions fillingActions).saveItems limitedArchive).toOption.getD ({}, {})

/-- A chest into which the blueprint puts a coin has two of them in it after a restart, as it had
before. -/
theorem containers_come_back_coins :
    (ofBlueprint coinCatalog coinHouse).1 = .ok coinWorld
      ∧ (coinWorld.afterActions fillingActions).saveItems limitedArchive = .ok savedFilled
      ∧ (coinWorld.graph.tree? 0).map ItemTree.size = some 2
      ∧ ∃ loaded t t', coinWorld.loadItems savedFilled.2 = .ok loaded
        ∧ (coinWorld.afterActions fillingActions).graph.tree? 0 = some t ∧ t.size = 3
        ∧ loaded.world.graph.tree? 0 = some t' ∧ t.Related Item.SameType t' := by
  -- The saving and the conditions of the theorem are computed for this one house.
  have hSaves : ((coinWorld.afterActions fillingActions).saveItems
      limitedArchive).toOption.isSome = true := by
    decide +kernel
  have hSaved : (coinWorld.afterActions fillingActions).saveItems limitedArchive
      = .ok savedFilled := by
    unfold savedFilled
    exact eq_ok_of_isSome ((coinWorld.afterActions fillingActions).saveItems limitedArchive)
      ({}, {}) hSaves
  have hParts : (coinWorld.afterActions fillingActions).saveItems limitedArchive
      = .ok (savedFilled.1, savedFilled.2) := by
    rw [hSaved, Prod.mk.eta]
  obtain ⟨_, hSame, _⟩ := tileRows_of_saveItems hParts
  have hHandling : coinWorld.graph.isHandling coinCatalog fillingActions = true := by
    decide +kernel
  have hKnown : ∀ tile ∈ coinWorld.houseTiles,
      ∀ t ∈ (coinWorld.afterActions fillingActions).treesOn tile.2,
        t.Every fun i _ => (coinCatalog.usable? i.typeId).isSome ∧ i.Unspent coinCatalog := by
    decide +kernel
  have hNesting : ∀ tile ∈ coinWorld.houseTiles,
      ∀ t ∈ (coinWorld.afterActions fillingActions).treesOn tile.2,
        t.nesting ≤ Record.maxDepth := by
    decide +kernel
  have hTile : ((1 : UInt32), Position.zero) ∈ coinWorld.houseTiles := by
    decide +kernel
  have hChest : 0 ∈ (coinWorld.afterActions fillingActions).graph.contents (.tile .zero) := by
    decide +kernel
  -- The chest does not move, and two coins lie in it.
  have hTree : ((coinWorld.afterActions fillingActions).graph.tree? 0).map (fun t =>
      (t.size, coinWorld.isMoveable t, t.item.isContainer, t.contents.isEmpty))
        = some (3, false, true, false) := by
    decide +kernel
  obtain ⟨t, ht, hFacts⟩ := Option.map_eq_some_iff.1 hTree
  simp only [Prod.mk.injEq] at hFacts
  obtain ⟨hSize, hStays, hHolds, hFull⟩ := hFacts
  have hNonempty : t.contents ≠ [] := by
    intro hNil
    rw [hNil] at hFull
    cases hFull
  obtain ⟨loaded, hLoaded, hAll⟩ := containers_come_back fillingActions ofBlueprint_coinHouse
    hHandling coinWorld_distinct hKnown hNesting limitedArchive_limited hParts
    (by rw [hSame]; rfl)
  obtain ⟨_, _, t', _, ht', hKept, _⟩ := hAll _ hTile 0 hChest t ht hStays hHolds
  exact ⟨ofBlueprint_coinHouse, hSaved, by decide +kernel, loaded, t, t', hLoaded, ht, hSize, ht',
    hKept (.inl hNonempty)⟩

/-- The coin is taken out of the chest. -/
def emptyingActions : List Graph.Action :=
  [.remove (.item 0) 1]

/-- That world once it is saved. -/
def savedEmptied : SaveReport × Archive :=
  ((coinWorld.afterActions emptyingActions).saveItems limitedArchive).toOption.getD ({}, {})

/-- What is loaded then. -/
def loadedEmptied : Loaded LoadReport :=
  (coinWorld.loadItems savedEmptied.2).toOption.getD
    { world := {}, report := {}, notices := [] }

/-- **A chest that was emptied is full again**: after a restart the coin lies in it that the
blueprint puts there, though all that happened is that this coin was taken out. -/
theorem emptied_chest_refills :
    (ofBlueprint coinCatalog coinHouse).1 = .ok coinWorld
      ∧ coinWorld.graph.isHandling coinCatalog emptyingActions = true
      ∧ (∀ tile ∈ coinWorld.houseTiles,
        ((coinWorld.graph.contents (.tile tile.2)).map coinWorld.graph.typeId?).Nodup)
      ∧ (∀ tile ∈ coinWorld.houseTiles,
        ∀ t ∈ (coinWorld.afterActions emptyingActions).treesOn tile.2,
          (t.Every fun i _ => (coinCatalog.usable? i.typeId).isSome ∧ i.Unspent coinCatalog)
            ∧ t.nesting ≤ Record.maxDepth)
      ∧ (coinWorld.afterActions emptyingActions).saveItems limitedArchive = .ok savedEmptied
      ∧ coinWorld.loadItems savedEmptied.2 = .ok loadedEmptied
      ∧ ∃ t t', (coinWorld.afterActions emptyingActions).graph.tree? 0 = some t
        ∧ t.item.isContainer = true ∧ t.contents = []
        ∧ loadedEmptied.world.graph.tree? 0 = some t' ∧ ¬ t.Related Item.SameType t' := by
  have hSaves : ((coinWorld.afterActions emptyingActions).saveItems
      limitedArchive).toOption.isSome = true := by
    decide +kernel
  have hSaved : (coinWorld.afterActions emptyingActions).saveItems limitedArchive
      = .ok savedEmptied := by
    unfold savedEmptied
    exact eq_ok_of_isSome ((coinWorld.afterActions emptyingActions).saveItems limitedArchive)
      ({}, {}) hSaves
  have hLoads : (coinWorld.loadItems savedEmptied.2).toOption.isSome = true := by
    decide +kernel
  have hLoaded : coinWorld.loadItems savedEmptied.2 = .ok loadedEmptied := by
    unfold loadedEmptied
    exact eq_ok_of_isSome (coinWorld.loadItems savedEmptied.2) _ hLoads
  have hBefore : ((coinWorld.afterActions emptyingActions).graph.tree? 0).map (fun t =>
      (t.item.isContainer, t.contents.length)) = some (true, 0) := by
    decide +kernel
  have hAfter : (loadedEmptied.world.graph.tree? 0).map (fun t => t.contents.length) = some 1 := by
    decide +kernel
  obtain ⟨t, ht, hFacts⟩ := Option.map_eq_some_iff.1 hBefore
  obtain ⟨t', ht', hFull⟩ := Option.map_eq_some_iff.1 hAfter
  simp only [Prod.mk.injEq, List.length_eq_zero_iff] at hFacts
  obtain ⟨hHolds, hEmpty⟩ := hFacts
  refine ⟨ofBlueprint_coinHouse, by decide +kernel, coinWorld_distinct, by decide +kernel, hSaved,
    hLoaded, t, t', ht, hHolds, hEmpty, ht', ?_⟩
  -- Trees of one shape have as many trees in them.
  obtain ⟨i, contents⟩ := t
  obtain ⟨j, contents'⟩ := t'
  obtain rfl : contents = [] := hEmpty
  cases contents' with
  | nil => cases hFull
  | cons u us => exact fun hRelated => hRelated.2

end World

end Homestead
