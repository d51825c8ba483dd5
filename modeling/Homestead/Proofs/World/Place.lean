/-
  Homestead.Proofs.World.Place
  ────────────────────────────
  **A RECORD THAT FITS FINDS ITS PLACE.**

  Bringing a record back changes an item of the map, or makes a new one, in
  several steps each of which might be refused.  In a sound world none is
  when the record fits the catalog: a new item can be put on the tile, the
  contents of an item of the map can be taken out, and those of the record
  can be put in, because the item is a container if the record has any.

  Main results:
    * `fixture?_eq_some` — which item of the map a record goes to;
    * `replaceContents_eq`, `bindFixture_eq` — what is done to it;
    * `place_of_fits` — bringing a record back never fails.
-/
import Homestead.Proofs.Record.Filling
import Homestead.Proofs.World.Sound

namespace Homestead

namespace World

/-! ## §1. The item of the map. -/

/-- What is found lies on the tile, is not given away yet and has the property. -/
theorem firstFree?_eq_some {w : World} {p : Position} {claimed : List ItemId}
    {property : Item → Bool} {id : ItemId} (h : w.firstFree? p claimed property = some id) :
    id ∈ w.graph.contents (.tile p) ∧ id ∉ claimed
      ∧ ∃ i, w.graph.item? id = some i ∧ property i = true := by
  have hMem := List.mem_of_find?_eq_some h
  have hProperty := List.find?_some h
  rw [List.mem_filter] at hMem
  have hFree : id ∉ claimed := by simpa using hMem.2
  refine ⟨hMem.1, hFree, ?_⟩
  simpa [Option.any_eq_true] using hProperty

/-- Something is found where such an item lies. -/
theorem firstFree?_isSome {w : World} {p : Position} {claimed : List ItemId}
    {property : Item → Bool} {id : ItemId} {i : Item} (hMem : id ∈ w.graph.contents (.tile p))
    (hFree : id ∉ claimed) (hi : w.graph.item? id = some i) (hProperty : property i = true) :
    (w.firstFree? p claimed property).isSome := by
  refine List.find?_isSome.2 ⟨id, List.mem_filter.2 ⟨hMem, ?_⟩, ?_⟩
  · simpa using hFree
  · rw [hi]
    exact hProperty

/-- **A record goes to a free item of its type**, or else of its kind if that is door or bed. -/
theorem fixture?_eq_some {w : World} {p : Position} {claimed : List ItemId} {typeId : TypeId}
    {id : ItemId} (h : w.fixture? p claimed typeId = some id) :
    id ∈ w.graph.contents (.tile p) ∧ id ∉ claimed
      ∧ ∃ i, w.graph.item? id = some i
        ∧ (i.typeId = typeId
          ∨ ∃ t, w.catalog.get? typeId = some t
            ∧ (t.isDoor = true ∧ i.isDoor = true ∨ t.isBed = true ∧ i.isBed = true)) := by
  unfold fixture? at h
  split at h
  next found hFound =>
    cases h
    obtain ⟨hMem, hFree, i, hi, hType⟩ := firstFree?_eq_some hFound
    exact ⟨hMem, hFree, i, hi, .inl (by simpa using hType)⟩
  next =>
    split at h
    next => cases h
    next t ht =>
      -- No item of the type is free: a door goes to a door, and a bed to a bed.
      split_ifs at h with hDoor hBed
      · obtain ⟨hMem, hFree, i, hi, hKind⟩ := firstFree?_eq_some h
        exact ⟨hMem, hFree, i, hi, .inr ⟨t, ht, .inl ⟨hDoor, hKind⟩⟩⟩
      · obtain ⟨hMem, hFree, i, hi, hKind⟩ := firstFree?_eq_some h
        exact ⟨hMem, hFree, i, hi, .inr ⟨t, ht, .inr ⟨hBed, hKind⟩⟩⟩

/-! ## §2. What a record does to it. -/

/-- The world in which the fields of a record are made to an item. -/
def updated (w : World) (id : ItemId) (r : Record) : World :=
  w.updateItem id fun i => i.applyAll w.catalog r.updates

/-- The world in which an item has a type, which it gets if it has another one. -/
def retyped (w : World) (id : ItemId) (newType : TypeId) : World :=
  if (w.graph.item? id).any (·.typeId != newType) then w.retype id newType else w

/-- The attributes of a record are given to one item of the graph. -/
theorem graph_updated (w : World) (id : ItemId) (r : Record) : (w.updated id r).graph
    = w.graph.update id fun i => i.applyAll w.catalog r.updates :=
  rfl

/-- Attributes keep the world sound: they leave the kind of an item. -/
theorem keeps_updated (w : World) (id : ItemId) (r : Record) : Keeps w (w.updated id r) :=
  keeps_updateItem w id (fun i => Item.typeId_applyAll w.catalog i r.updates)
    (fun i => Item.sameKind_variant_applyAll w.catalog i r.updates)

/-- Taking on the type of a record keeps the world sound. -/
theorem keeps_retyped (w : World) (id : ItemId) (newType : TypeId) :
    Keeps w (w.retyped id newType) := by
  unfold retyped
  split
  · exact keeps_retype w id newType
  · exact Keeps.refl w

/-- The attributes are no matter of place or contents. -/
theorem node?_updated {w : World} {id : ItemId} {n : Node} (hn : w.graph.node? id = some n)
    (r : Record) : (w.updated id r).graph.node? id
      = some { n with item := n.item.applyAll w.catalog r.updates } := by
  rw [graph_updated, Graph.node?_update, if_pos rfl, hn, Option.map_some]

/-- Fields leave an item of its kind, so it may still be filled. -/
theorem isContainer_applyAll (c : Catalog) (i : Item) (us : List Record.Update) :
    (i.applyAll c us).isContainer = i.isContainer :=
  Variant.isContainer_eq_of_sameKind (Item.sameKind_variant_applyAll c i us)

namespace Restoring

/-! ## §3. Placing. -/

/-- The world is kept, and no row is counted as failed or skipped. -/
structure Placed (s s' : Restoring) : Prop where
  /-- The world is kept. -/
  keeps : Keeps s.world s'.world
  /-- The count of failed rows is the same. -/
  failed : s'.report.failed = s.report.failed
  /-- The count of skipped rows is the same. -/
  skipped : s'.report.skipped = s.report.skipped

/-- Two placings, one after the other. -/
theorem Placed.trans {s s' s'' : Restoring} (h : Placed s s') (h' : Placed s' s'') :
    Placed s s'' where
  keeps := h.keeps.trans h'.keeps
  failed := h'.failed.trans h.failed
  skipped := h'.skipped.trans h.skipped

variable {s : Restoring} {p : Position} {r : Record}

/-- What moves is put at the end of its tile as soon as it is built. -/
theorem placeMoveable_eq (hs : s.world.Sound) (hTile : (s.world.graph.tile? p).isSome)
    {t : ItemTree} {tally : Tally} (hBuilt : r.build s.world.catalog = (.ok (some t), tally)) :
    placeMoveable p r s = (.ok (), { s.count tally with
      world := ({ s.world with graph := s.world.graph.onTile p t } : World).register
        (s.world.graph.create t).1 }) := by
  have hTree := Record.hollow_of_build r t (by rw [hBuilt])
  have hAdd := hs.consistent.add_onTile hTree hTile
  unfold placeMoveable
  rw [hBuilt]
  dsimp only [count]
  rw [Graph.tryAdd_of_ok hAdd]

/-- A new tree on a tile. -/
theorem keeps_onTile (hs : s.world.Sound) (hTile : (s.world.graph.tile? p).isSome) {t : ItemTree}
    (hTree : (r.build s.world.catalog).1 = .ok (some t)) :
    Keeps s.world { s.world with graph := s.world.graph.onTile p t } := by
  have hHollow := Record.hollow_of_build r t hTree
  have hPlanted := Graph.planted_create hs.consistent hHollow
  have hAdd := hs.consistent.add_onTile hHollow hTile
  refine keeps_withGraph (fun _ => hPlanted.consistent.add hAdd)
    (fun _ => (Graph.AllItems.built hs.consistent hs.typed hTree).insert hAdd) ?_
  intro q
  rw [Graph.onTile, Graph.isSome_tile?_relist, Graph.tile?_eq_of_tiles hPlanted.tiles]

/-- **What moves can always be put on its tile.** -/
theorem placeMoveable_of_fits (hs : s.world.Sound) (hTile : (s.world.graph.tile? p).isSome)
    (hFits : r.Fits s.world.catalog) :
    ∃ s', placeMoveable p r s = (.ok (), s') ∧ Placed s s' := by
  obtain ⟨o, tally, hBuilt⟩ := Record.build_of_fits r hFits
  cases o with
  | none =>
    unfold placeMoveable
    rw [hBuilt]
    exact ⟨_, rfl, Keeps.refl _, rfl, rfl⟩
  | some t =>
    have hPut := keeps_onTile hs hTile (by rw [hBuilt] : (r.build s.world.catalog).1 = .ok (some t))
    exact ⟨_, placeMoveable_eq hs hTile hBuilt, hPut.trans (keeps_register _ _), rfl, rfl⟩

/-- The contents of an item have made way for those of records. -/
structure Exchanged (c : Catalog) (id : ItemId) (i : Item) (rs : List Record) (g g' : Graph) :
    Prop where
  /-- The graph is consistent. -/
  consistent : g'.Consistent
  /-- Items are in the variants of their types, if they were. -/
  typed : g.AllTyped c → g'.AllTyped c
  /-- The tiles are as before. -/
  tiles : g'.tiles = g.tiles
  /-- The item differs in what is still to come. -/
  item : ∃ k, g'.item? id = some { i with variant := i.variant.setPending k }
  /-- In the item there is what is built of the records. -/
  inner : ∃ ts, (Record.buildAll c rs).1 = .ok ts ∧ g'.ShowsAll (g'.contents (.item id)) ts
  /-- What does not lie in the item is as before. -/
  confined : ∀ (S : ItemId → Prop) (T : Position → Prop), g.Region S → S id →
    Graph.Confined S T g g'

/-- **A container can be given the contents of every record that fits.** -/
theorem replaceContents_eq (hs : s.world.Sound) (hFits : r.Fits s.world.catalog)
    {rs : List Record} (hChildren : r.children = some rs) {id : ItemId} {n : Node}
    (hn : s.world.graph.node? id = some n) (hHolds : n.item.isContainer = true) :
    ∃ tally g', replaceContents id r s
        = (.ok (), ({ s with world := { s.world with graph := g' } }).count tally)
      ∧ Exchanged s.world.catalog id n.item rs s.world.graph g' := by
  -- First the container is emptied, which never fails in a graph whose links are in order.
  obtain ⟨g, hEmpty, hEmptied⟩ := hs.consistent.emptyOut id
  obtain ⟨m, hm, hItem⟩ : ∃ m, g.node? id = some m ∧ m.item = n.item := by
    have hSame := hEmptied.items id
    rw [Graph.item?, Graph.item?, hn] at hSame
    exact Option.map_eq_some_iff.1 hSame
  obtain ⟨tally, ts, ids, g', hFill, hts, hGrown, hShows⟩ :=
    Record.fill_of_fits hFits hChildren hEmptied.consistent hm (hItem ▸ hHolds)
  obtain ⟨m', k, hm', hNode⟩ := hGrown.node
  obtain rfl := Option.some_inj.1 (hm.symm.trans hm')
  refine ⟨tally, g', ?_, ?_⟩
  · unfold replaceContents
    rw [hChildren]
    dsimp only
    rw [hEmpty]
    dsimp only
    rw [hFill]
  -- It is then filled with new items, behind nothing.
  constructor
  case consistent => exact hGrown.consistent
  case typed =>
    intro hTyped
    have hFilled := Graph.AllItems.fill hEmptied.consistent (hTyped.of_item? hEmptied.items) id r
    rwa [hFill] at hFilled
  case tiles => rw [hGrown.tiles, hEmptied.tiles.1]
  case item =>
    refine ⟨k, ?_⟩
    rw [← hItem]
    exact Graph.item?_eq_some.2 ⟨_, hNode, rfl⟩
  case inner =>
    have hContents : g'.contents (.item id) = ids := by
      rw [g'.contents_item hNode, ← g.contents_item hm, hEmptied.empty, List.nil_append]
    exact ⟨ts, hts, hContents ▸ hShows⟩
  case confined =>
    intro S T hRegion hid
    have hOut := hEmptied.confined S T hRegion hid
    exact hOut.trans (hGrown.confined hEmptied.consistent hOut.region hid)

/-- Giving an item the contents of a record never fails if the item is a container as soon as the
record has any. -/
theorem replaceContents_of_fits (hs : s.world.Sound) (hFits : r.Fits s.world.catalog)
    {id : ItemId} {n : Node} (hn : s.world.graph.node? id = some n)
    (hHolds : r.children.isSome → n.item.isContainer = true) :
    ∃ s', replaceContents id r s = (.ok (), s') ∧ Placed s s' := by
  cases hChildren : r.children with
  | none =>
    unfold replaceContents
    rw [hChildren]
    exact ⟨s, rfl, Keeps.refl _, rfl, rfl⟩
  | some rs =>
    -- The item is emptied and filled, and neither can fail.
    obtain ⟨tally, g', hReplace, hExchanged⟩ :=
      replaceContents_eq hs hFits hChildren hn (hHolds (by rw [hChildren]; rfl))
    refine ⟨_, hReplace, ?_, rfl, rfl⟩
    refine keeps_withGraph (fun _ => hExchanged.consistent) ?_ ?_
    · exact fun hw => hExchanged.typed hw.typed
    · exact fun q => congrArg Option.isSome (Graph.tile?_eq_of_tiles hExchanged.tiles q)

/-- An item of the map that a record with contents goes to is a container. -/
theorem isContainer_of_fixture? (hs : s.world.Sound) (hFits : r.Fits s.world.catalog)
    (hKnown : r.known = true) (hChildren : r.children.isSome) {id : ItemId} {i : Item}
    (hi : s.world.graph.item? id = some i)
    (hBound : i.typeId = r.typeId ∨ ∃ t, s.world.catalog.get? r.typeId = some t
      ∧ (t.isDoor = true ∧ i.isDoor = true ∨ t.isBed = true ∧ i.isBed = true)) :
    i.isContainer = true := by
  obtain ⟨rs, hrs⟩ := Option.isSome_iff_exists.1 hChildren
  rw [hFits.known_eq] at hKnown
  obtain ⟨t, ht⟩ := Option.isSome_iff_exists.1 hKnown
  have hGet := Catalog.get?_of_usable? ht
  have hMay : t.variant.isContainer = true := by
    have h := (hFits.of_children hrs).1
    rwa [ht] at h
  rcases hBound with hType | ⟨t', ht', hKind⟩
  · -- An item of the type is in the variant of the type, which holds things.
    have hTyped := hs.typed id i hi t (by rw [hType]; exact hGet)
    exact (Variant.isContainer_eq_of_sameKind hTyped).trans hMay
  · -- Doors and beds have no contents.
    obtain rfl := Option.some_inj.1 (hGet.symm.trans ht')
    rw [ItemType.isContainer_variant] at hMay
    unfold ItemType.isContainer at hMay
    unfold ItemType.isDoor ItemType.isBed at hKind
    rcases hKind with ⟨hGroup, _⟩ | ⟨hGroup, _⟩ <;> rw [eq_of_beq hGroup] at hMay <;> cases hMay

/-- An item of the map that is given what a record says gets the fields, then the contents, then the
type; last its time starts. -/
theorem bindFixture_eq {id : ItemId} {s₀ : Restoring}
    (hReplace : replaceContents id r { s with world := s.world.updated id r } = (.ok (), s₀)) :
    bindFixture id r s = (.ok (), { s₀ with
      world := (s₀.world.retyped id r.typeId).register id
      report := { s₀.report with matched := s₀.report.matched + 1 }
      claimed := s₀.claimed ++ [id] }) := by
  unfold updated at hReplace
  unfold bindFixture
  dsimp only
  rw [hReplace]
  rfl

/-- A fixture whose contents cannot be put back has been given the attributes all the same. -/
theorem bindFixture_of_refused {id : ItemId} {e : Record.DecodeError} {s₀ : Restoring}
    (hReplace : replaceContents id r { s with world := s.world.updated id r } = (.error e, s₀)) :
    bindFixture id r s = (.error e, s₀) := by
  unfold updated at hReplace
  unfold bindFixture
  dsimp only
  rw [hReplace]

/-- The other way round: what is not refused was done so. -/
theorem bindFixture_eq_ok {id : ItemId} {s₁ : Restoring} (h : bindFixture id r s = (.ok (), s₁)) :
    ∃ s₀, replaceContents id r { s with world := s.world.updated id r } = (.ok (), s₀)
      ∧ s₁ = { s₀ with
        world := (s₀.world.retyped id r.typeId).register id
        report := { s₀.report with matched := s₀.report.matched + 1 }
        claimed := s₀.claimed ++ [id] } := by
  unfold bindFixture at h
  dsimp only at h
  split at h
  next => cases h
  next s₀ hReplace => exact ⟨s₀, hReplace, (Prod.mk.inj h).2.symm⟩

/-- **An item of the map can always be given what a record says.** -/
theorem bindFixture_of_fits (hs : s.world.Sound) (hFits : r.Fits s.world.catalog)
    {id : ItemId} {n : Node} (hn : s.world.graph.node? id = some n)
    (hHolds : r.children.isSome → n.item.isContainer = true) :
    ∃ s', bindFixture id r s = (.ok (), s') ∧ Placed s s' := by
  have hUpdated := keeps_updated s.world id r
  -- The fields change what is written on it, and not what it is.
  have hStill : r.children.isSome →
      (n.item.applyAll s.world.catalog r.updates).isContainer = true := by
    intro hChildren
    rw [isContainer_applyAll]
    exact hHolds hChildren
  obtain ⟨s₀, hReplace, hPlaced⟩ := replaceContents_of_fits
    (s := { s with world := s.world.updated id r }) (hUpdated.sound hs) hFits
    (node?_updated hn r) hStill
  have hRetyped := keeps_retyped s₀.world id r.typeId
  exact ⟨_, bindFixture_eq hReplace,
    (hUpdated.trans hPlaced.keeps).trans (hRetyped.trans (keeps_register _ id)),
    hPlaced.failed, hPlaced.skipped⟩

/-- Nothing that lies anywhere is touched when a record is let go. -/
theorem graph_throwAway (r : Record) (s : Restoring) :
    (throwAway r s).2.world.graph = s.world.graph
      ∧ (throwAway r s).2.world.catalog = s.world.catalog
      ∧ (throwAway r s).2.claimed = s.claimed := by
  unfold throwAway
  dsimp only
  split
  next => exact ⟨rfl, rfl, rfl⟩
  next =>
    split
    · exact ⟨rfl, rfl, rfl⟩
    · exact ⟨rfl, rfl, rfl⟩

/-- **A record without an item of the map can always be let go.** -/
theorem throwAway_of_fits (hFits : r.Fits s.world.catalog) :
    ∃ s', throwAway r s = (.ok (), s') ∧ Placed s s' := by
  obtain ⟨o, tally, hBuilt⟩ := Record.build_of_fits r hFits
  unfold throwAway
  dsimp only
  rw [hBuilt]
  dsimp only
  split
  · exact ⟨_, rfl, keeps_of_graph rfl rfl, rfl, rfl⟩
  · exact ⟨_, rfl, Keeps.refl _, rfl, rfl⟩

/-! What becomes of a record depends on its type, and on whether an item of the map is
left for it. -/

/-- A record of an unknown type is let go. -/
theorem place_of_unknown (h : moves? s.world.catalog r = none) :
    place p r s = (.ok (), s.count (.letGo r.total)) := by
  unfold place
  rw [h]

/-- A record that moves becomes a new item. -/
theorem place_of_moves (h : moves? s.world.catalog r = some true) :
    place p r s = placeMoveable p r s := by
  unfold place
  rw [h]

/-- A record that does not move is bound to a free fixture of its type. -/
theorem place_of_fixture (h : moves? s.world.catalog r = some false) {id : ItemId}
    (hFixture : s.world.fixture? p s.claimed r.typeId = some id) :
    place p r s = bindFixture id r s := by
  unfold place
  rw [h]
  dsimp only
  rw [hFixture]

/-- A record that does not move is thrown away where no fixture is free. -/
theorem place_of_no_fixture (h : moves? s.world.catalog r = some false)
    (hFixture : s.world.fixture? p s.claimed r.typeId = none) :
    place p r s = throwAway r s := by
  unfold place
  rw [h]
  dsimp only
  rw [hFixture]

/-- Records of known types only are brought back. -/
theorem known_of_moves? {c : Catalog} {moves : Bool} (h : moves? c r = some moves) :
    r.known = true := by
  unfold moves? at h
  by_contra hNot
  rw [if_neg hNot] at h
  cases h

/-- What is brought back has a type that the catalog has. -/
theorem type_of_moves? {c : Catalog} {moves : Bool} (h : moves? c r = some moves) :
    ∃ t, c.get? r.typeId = some t ∧ t.moveable = moves := by
  unfold moves? at h
  rw [if_pos (known_of_moves? h)] at h
  exact Option.map_eq_some_iff.1 h

/-- **Bringing back a record that fits never fails.** -/
theorem place_of_fits (hs : s.world.Sound) (hTile : (s.world.graph.tile? p).isSome)
    (hFits : r.Fits s.world.catalog) : ∃ s', place p r s = (.ok (), s') ∧ Placed s s' := by
  cases hMoves : moves? s.world.catalog r with
  | none => exact ⟨_, place_of_unknown hMoves, Keeps.refl _, rfl, rfl⟩
  | some moves =>
    cases moves with
    | true =>
      rw [place_of_moves hMoves]
      exact placeMoveable_of_fits hs hTile hFits
    | false =>
      -- Either it goes to an item of the map or it is let go.
      cases hFixture : s.world.fixture? p s.claimed r.typeId with
      | none =>
        rw [place_of_no_fixture hMoves hFixture]
        exact throwAway_of_fits hFits
      | some id =>
        obtain ⟨_, _, i, hi, hBound⟩ := fixture?_eq_some hFixture
        obtain ⟨n, hn, rfl⟩ := Graph.item?_eq_some.1 hi
        rw [place_of_fixture hMoves hFixture]
        refine bindFixture_of_fits hs hFits hn ?_
        intro hChildren
        exact isContainer_of_fixture? hs hFits (known_of_moves? hMoves) hChildren hi hBound

end Restoring

end World

end Homestead
