/-
  Homestead.Proofs.World.Return
  ─────────────────────────────
  **WHAT A RECORD BRINGS BACK.**

  The record of an item that moves puts a new item behind all that lies on
  the tile.  The record of one that does not move changes an item of the
  map and what lies in it, or nothing; on the tile no item comes, goes or
  changes its place.  All of this holds of items with time left: one
  without might be gone, with all that it holds, before the next record is
  read.

  Main results:
    * `placeMoveable_returns` — what moves comes back behind the others;
    * `bindFixture_returns` — what does not move stays where it is.
-/
import Homestead.Proofs.World.Place
import Homestead.Proofs.World.Register

namespace Homestead

/-! ## §1. Trees that come back. -/

/-- `new` is `old` as it comes back, but for where it stands in its decay. -/
def Item.CameBack (c : Catalog) (old new : Item) : Prop :=
  ∃ t, c.usable? old.typeId = some t ∧ Item.Restored c t old new

/-- The items are of one type. -/
def Item.SameType (old new : Item) : Prop :=
  new.typeId = old.typeId

/-- The item can be stored, and has time left or no time at all. -/
structure Item.Returns (c : Catalog) (i : Item) (contents : List ItemTree) : Prop where
  /-- It can be stored. -/
  storable : i.Storable c contents
  /-- It has time left, or no time at all. -/
  unspent : i.Unspent c

namespace ItemTree

variable {c : Catalog}

/-- Items that read back have time left if their types tell them so. -/
theorem lasting_of_readBack {ts ts' : List ItemTree} (h : RelatedAll (Item.ReadBack c) ts ts')
    (hReturns : EveryOf (Item.Returns c) ts) : EveryOf (fun i _ => i.Lasting c) ts' := by
  refine RelatedAll.every (P := fun i => i.Unspent c) ?_ ts ts' h
    (EveryOf.imp (fun i cs hi => hi.unspent) ts hReturns)
  rintro i j ⟨t, ht, hRestored, _⟩ hUnspent
  exact Item.lasting_of_restored (Catalog.get?_of_usable? ht) hRestored hUnspent

/-- Trees that come back are built as trees that have time left. -/
theorem buildAll_returns (ts : List ItemTree) (h : EveryOf (Item.Returns c) ts) :
    ∃ ts', (Record.buildAll c (records c ts)).1 = .ok ts' ∧ RelatedAll (Item.ReadBack c) ts ts'
      ∧ EveryOf (fun i _ => i.Lasting c) ts' := by
  obtain ⟨ts', hBuilt, hRelated⟩ :=
    buildAll_records c ts (EveryOf.imp (fun i cs hi => hi.storable) ts h)
  exact ⟨ts', by rw [hBuilt], hRelated, lasting_of_readBack hRelated h⟩

/-- The record of a tree that returns is built into a tree with time left. -/
theorem build_returns (t : ItemTree) (h : t.Every (Item.Returns c)) :
    ∃ t' tally, (t.record c).build c = (.ok (some t'), tally) ∧ t.Related (Item.ReadBack c) t'
      ∧ t'.Every fun i _ => i.Lasting c := by
  obtain ⟨t', hBuilt, hRelated⟩ :=
    build_record c t (Every.imp (fun i cs hi => hi.storable) t h)
  have hOne : RelatedAll (Item.ReadBack c) [t] [t'] := ⟨hRelated, trivial⟩
  exact ⟨t', _, hBuilt, hRelated, (lasting_of_readBack hOne ⟨h, trivial⟩).1⟩

end ItemTree

namespace World

namespace Restoring

variable {c : Catalog} {s : Restoring} {p : Position} {t : ItemTree}

/-! ## §2. What moves. -/

/-- A tree has come back behind all that lies on a tile. -/
structure Added (c : Catalog) (p : Position) (t : ItemTree) (s s' : Restoring) : Prop where
  /-- No item of the map has been given away. -/
  claimed : s'.claimed = s.claimed
  /-- Nothing else has changed. -/
  confined : ∀ S : ItemId → Prop, s.world.graph.Region S →
    Graph.Confined S (· = p) s.world.graph s'.world.graph
  /-- The last item on the tile is the tree as it comes back. -/
  last : ∃ id u, s'.world.graph.contents (.tile p) = s.world.graph.contents (.tile p) ++ [id]
    ∧ s'.world.graph.Shows id u ∧ t.Related (Item.CameBack c) u

/-- All that lies on the tile is left alone. -/
theorem Added.leftAlone {s' : Restoring} (h : Added c p t s s') (hs : s.world.Sound)
    {other : ItemId} (hOther : other ∈ s.world.graph.contents (.tile p)) :
    s.world.graph.LeftAlone s'.world.graph other := by
  have hConfined := h.confined _ (hs.consistent.region_around fun _ => False)
  exact hConfined.leftAlone fun _ hReach =>
    hs.consistent.apart hOther (fun _ hNone => hNone.elim) hReach

/-- **What moves comes back behind all that lies on the tile.** -/
theorem placeMoveable_returns (hs : s.world.Sound) (hc : s.world.catalog = c)
    (hTile : (s.world.graph.tile? p).isSome) (hReturns : t.Every (Item.Returns c)) :
    ∃ s', placeMoveable p (t.record c) s = (.ok (), s') ∧ Added c p t s s' := by
  obtain ⟨t', tally, hBuilt, hRelated, hLasting⟩ := t.build_returns hReturns
  have hTree := Record.hollow_of_build (t.record c) t' (by rw [hBuilt])
  have hBuiltHere : (t.record c).build s.world.catalog = (.ok (some t'), tally) := by
    rw [hc]
    exact hBuilt
  have hShows := hs.consistent.shows_onTile hTree p
  -- Once it lies on the tile its decay starts; all items of it have time left.
  have hStarted : Started { s.world with graph := s.world.graph.onTile p t' }
      (({ s.world with graph := s.world.graph.onTile p t' } : World).register
        (s.world.graph.create t').1) (s.world.graph.create t').1 := by
    refine started_register ?_
    show (s.world.graph.onTile p t').AllWithin (Item.Lasting s.world.catalog) _
    rw [hc]
    exact hShows.allWithin t' _ hLasting
  obtain ⟨u, hShown, hAlike⟩ := Graph.Shows.wound hStarted.wound t' _ hShows
  refine ⟨_, Restoring.placeMoveable_eq hs hTile hBuiltHere, ?_⟩
  constructor
  case claimed => rfl
  case confined =>
    intro S hRegion
    have hPut := hs.consistent.confined_onTile hTree p hRegion
    have hFresh : S (s.world.graph.create t').1 :=
      hRegion.fresh _ ((Graph.planted_create hs.consistent hTree).root _ List.mem_cons_self).1
    exact hPut.trans (hStarted.confined S (· = p) hPut.region hFresh)
  case last =>
    refine ⟨(s.world.graph.create t').1, u, ?_, hShown, ?_⟩
    · rw [hStarted.wound.contents_eq]
      exact hs.consistent.contents_onTile hTree hTile
    · refine ItemTree.Related.trans ?_ t t' u hRelated hAlike
      rintro i j k ⟨ty, hType, hRestored, _⟩ hjk
      exact ⟨ty, hType, hRestored.of_alike hjk⟩

/-! ## §3. What does not move. -/

/-- The contents of an item have made way for those of a tree, if the tree has any. -/
structure Refilled (c : Catalog) (id : ItemId) (i : Item) (t : ItemTree) (s s' : Restoring) :
    Prop where
  /-- No item of the map has been given away. -/
  claimed : s'.claimed = s.claimed
  /-- The catalog is the same. -/
  catalog : s'.world.catalog = s.world.catalog
  /-- The item differs in what is still to come. -/
  item : ∃ k, s'.world.graph.item? id = some { i with variant := i.variant.setPending k }
  /-- What lies in the item has time left. -/
  below : s'.world.graph.AllBelow (Item.Lasting c) id
  /-- What does not lie in the item is as before. -/
  confined : ∀ (S : ItemId → Prop) (T : Position → Prop), s.world.graph.Region S → S id →
    Graph.Confined S T s.world.graph s'.world.graph
  /-- What lies in the item is what a tree with a place for contents has in it. -/
  inner : (t.record c).children.isSome → ∃ us,
    s'.world.graph.ShowsAll (s'.world.graph.contents (.item id)) us
      ∧ ItemTree.RelatedAll (Item.ReadBack c) t.contents us

/-- What is built of the contents of a tree that comes back is what was stored, and has time
left. -/
theorem built_returns (hReturns : t.Every (Item.Returns c)) {rs : List Record}
    (hChildren : (t.record c).children = some rs) {ts : List ItemTree}
    (hBuilt : (Record.buildAll c rs).1 = .ok ts) :
    ItemTree.RelatedAll (Item.ReadBack c) t.contents ts
      ∧ ItemTree.EveryOf (fun i _ => i.Lasting c) ts := by
  obtain ⟨i, contents⟩ := t
  -- Only a container has children in its record, and they are the records of its contents.
  have hRecords : rs = ItemTree.records c contents := by
    have hList : (if i.isContainer then some (ItemTree.records c contents) else none)
        = some rs := hChildren
    split_ifs at hList
    exact (Option.some_inj.1 hList).symm
  obtain ⟨ts', hBuilt', hRelated, hLasting⟩ := ItemTree.buildAll_returns contents hReturns.2
  rw [← hRecords, hBuilt] at hBuilt'
  obtain rfl := Except.ok.inj hBuilt'
  exact ⟨hRelated, hLasting⟩

/-- The contents of a container that returns are put back. -/
theorem replaceContents_returns (hs : s.world.Sound) (hc : s.world.catalog = c)
    (hReturns : t.Every (Item.Returns c)) (hFits : (t.record c).Fits c) {id : ItemId} {n : Node}
    (hn : s.world.graph.node? id = some n)
    (hHolds : (t.record c).children.isSome → n.item.isContainer = true)
    (hBelow : s.world.graph.AllBelow (Item.Lasting c) id) :
    ∃ s', replaceContents id (t.record c) s = (.ok (), s') ∧ Refilled c id n.item t s s' := by
  -- Without contents on record the container is left as it is, with what it holds.
  cases hChildren : (t.record c).children with
  | none =>
    have hSame : n.item.variant.setPending ((n.item.variant.pending).getD 0) = n.item.variant := by
      cases n.item.variant <;> rfl
    unfold replaceContents
    rw [hChildren]
    refine ⟨s, rfl, rfl, rfl, ⟨n.item.variant.pending.getD 0, ?_⟩, hBelow, ?_, ?_⟩
    · rw [hSame]
      exact Graph.item?_eq_some.2 ⟨n, hn, rfl⟩
    · exact fun S T hRegion _ => .refl hRegion T
    · rw [hChildren]
      exact fun hNone => by cases hNone
  | some rs =>
    subst hc
    obtain ⟨tally, g', hReplace, hExchanged⟩ :=
      replaceContents_eq hs hFits hChildren hn (hHolds (by rw [hChildren]; rfl))
    obtain ⟨ts, hBuilt, hShows⟩ := hExchanged.inner
    obtain ⟨hRelated, hLasting⟩ := built_returns hReturns hChildren hBuilt
    refine ⟨_, hReplace, ?_⟩
    constructor
    case claimed => rfl
    case catalog => rfl
    case item => exact hExchanged.item
    case below => exact Graph.allBelow_of_contents (Graph.ShowsAll.allWithin ts _ hLasting hShows)
    case confined => exact hExchanged.confined
    case inner => exact fun _ => ⟨ts, hShows, hRelated⟩

/-- The item gets the type of the record, if it has another one. -/
structure Retyped (c : Catalog) (id : ItemId) (newType : TypeId) (w w' : World) : Prop where
  /-- The catalog is the same. -/
  catalog : w'.catalog = w.catalog
  /-- The item has the type. -/
  typeId : ∀ i, w'.graph.item? id = some i → i.typeId = newType
  /-- The item and all that lies in it have time left. -/
  within : w'.graph.AllWithin (Item.Lasting c) id
  /-- What does not lie in the item is as before. -/
  confined : ∀ (S : ItemId → Prop) (T : Position → Prop), w.graph.Region S → S id →
    Graph.Confined S T w.graph w'.graph

/-- An item takes on the type of its record, if it has time left in that type. -/
theorem retyped_of_lasting {w : World} (hc : w.catalog = c) {id : ItemId} {i : Item}
    (hi : w.graph.item? id = some i) (hBelow : w.graph.AllBelow (Item.Lasting c) id)
    {newType : TypeId} (hSame : i.typeId = newType → i.Lasting c)
    (hOther : (i.become c newType).Lasting c) :
    Retyped c id newType w (w.retyped id newType) := by
  rw [World.retyped, hi, Option.any_some]
  -- It gets the type of the record only if it has another.
  by_cases hType : i.typeId = newType
  · rw [if_neg (by simpa using hType)]
    constructor
    case catalog => rfl
    case typeId =>
      intro i' hi'
      obtain rfl := Option.some_inj.1 (hi.symm.trans hi')
      exact hType
    case within =>
      refine hBelow.allWithin ?_
      intro i' hi'
      obtain rfl := Option.some_inj.1 (hi.symm.trans hi')
      exact hSame hType
    case confined => exact fun S T hRegion _ => .refl hRegion T
  · rw [if_pos (by simpa using hType)]
    have hBecome : (w.retype id newType).graph.item? id = some (i.become c newType) := by
      show (w.graph.retype w.catalog id newType).item? id = _
      rw [Graph.item?_retype, if_pos rfl, hi, hc, Option.map_some]
    -- What lies below the item keeps its type and its place.
    have hStill : (w.retype id newType).graph.AllBelow (Item.Lasting c) id := by
      refine hBelow.of_change (fun _ _ => Graph.lies_of_retype) ?_
      intro j hj
      show (w.graph.retype w.catalog id newType).item? j = _
      rw [Graph.item?_retype, if_neg hj]
    constructor
    case catalog => rfl
    case typeId =>
      intro i' hi'
      obtain rfl := Option.some_inj.1 (hBecome.symm.trans hi')
      exact i.typeId_become c newType
    case within =>
      refine hStill.allWithin ?_
      intro i' hi'
      obtain rfl := Option.some_inj.1 (hBecome.symm.trans hi')
      exact hOther
    case confined =>
      exact fun S T hRegion hid => Graph.confined_retype hRegion hid w.catalog newType

/-- An item of the map has been given what a tree says. -/
structure Bound (c : Catalog) (id : ItemId) (t : ItemTree) (s s' : Restoring) : Prop where
  /-- The item has been given away. -/
  claimed : s'.claimed = s.claimed ++ [id]
  /-- The item has the type of the tree. -/
  typeId : ∀ i, s'.world.graph.item? id = some i → i.typeId = t.item.typeId
  /-- What does not lie in the item is as before. -/
  confined : ∀ (S : ItemId → Prop) (T : Position → Prop), s.world.graph.Region S → S id →
    Graph.Confined S T s.world.graph s'.world.graph
  /-- An item of the type of the tree shows a tree of the same types, if that has a place for
  contents. -/
  tree : (∀ i, s.world.graph.item? id = some i → i.typeId = t.item.typeId) →
    (t.record c).children.isSome →
    ∃ u, s'.world.graph.Shows id u ∧ t.Related Item.SameType u

section Bound

variable {s' : Restoring} {id : ItemId}

/-- On every tile there lie the same items. -/
theorem Bound.contents (h : Bound c id t s s') (hs : s.world.Sound) (q : Position) :
    s'.world.graph.contents (.tile q) = s.world.graph.contents (.tile q) :=
  hs.consistent.contents_of_confined h.confined q

/-- All other items on the tile are left alone. -/
theorem Bound.leftAlone (h : Bound c id t s s') (hs : s.world.Sound)
    (hid : id ∈ s.world.graph.contents (.tile p)) {other : ItemId}
    (hOther : other ∈ s.world.graph.contents (.tile p)) (hne : other ≠ id) :
    s.world.graph.LeftAlone s'.world.graph other :=
  hs.consistent.leftAlone_of_confined h.confined hid hOther hne

end Bound

/-- An item of the map has time left once the fields of a stored item are made to it, whether it
has the type of that item or gets it. -/
theorem lasting_of_ticking {base i : Item} (hBase : base.Ticking c) (hUnspent : i.Unspent c)
    {host : ItemType} (hHost : c.usable? i.typeId = some host) (k : UInt32)
    (contents : List ItemTree) {fitted : Item}
    (hFitted : fitted = base.applyAll c ((ItemTree.node i contents).record c).updates) :
    (fitted.typeId = i.typeId →
        ({ fitted with variant := fitted.variant.setPending k } : Item).Lasting c)
      ∧ (({ fitted with variant := fitted.variant.setPending k } : Item).become c
        i.typeId).Lasting c := by
  rw [ItemTree.record, Record.updates, hHost, Option.map_some] at hFitted
  constructor
  · intro hSame
    rw [hFitted, Item.typeId_applyAll] at hSame
    have hLasting := Item.lasting_applyAll hBase hUnspent hSame host
    rw [← hFitted] at hLasting
    exact hLasting.of_time rfl rfl
  · -- With another type the time of that counts, unless it has one already, which is positive.
    refine Item.lasting_become ?_
    intro t ht hDecays
    have hPositive : fitted.has .duration = true → 0 < fitted.duration := by
      rw [hFitted]
      exact Item.positive_applyAll hBase hUnspent ht hDecays
    exact hPositive

/-- When the fields of a record are made to an item, what lies in it has time left as before. -/
theorem below_updated {w : World} {id : ItemId} (r : Record)
    (hTicking : w.graph.AllWithin (Item.Ticking c) id) :
    (w.updated id r).graph.AllBelow (Item.Lasting c) id := by
  have hBefore : w.graph.AllBelow (Item.Lasting c) id :=
    fun j i _ hReach hi => (hTicking j i hReach hi).lasting
  refine hBefore.of_change ?_ ?_
  · intro inner outer hLies
    rwa [graph_updated, Graph.Lies, Graph.contents_update] at hLies
  · intro j hj
    rw [graph_updated, Graph.item?_update, if_neg hj]

/-- An item that has the type of a tree already, and is filled as the tree is, shows a tree of the
same types. -/
theorem Refilled.tree {id : ItemId} {i : Item} {s s₁ : Restoring} {w : World}
    (h : Refilled c id i t s s₁) (hOwn : i.typeId = t.item.typeId)
    (hChildren : (t.record c).children.isSome)
    (hStarted : Started (s₁.world.retyped id t.item.typeId) w id) :
    ∃ u, w.graph.Shows id u ∧ t.Related Item.SameType u := by
  obtain ⟨k, hItem⟩ := h.item
  obtain ⟨us, hInner, hBack⟩ := h.inner hChildren
  obtain ⟨m, hm, hRoot⟩ := Graph.item?_eq_some.1 hItem
  rw [s₁.world.graph.contents_item hm] at hInner
  have hShows : s₁.world.graph.Shows id
      (.node { i with variant := i.variant.setPending k } us) :=
    ⟨m, hm, hRoot, hInner⟩
  -- It has the type of the record, and is not given another one.
  have hKept : s₁.world.retyped id t.item.typeId = s₁.world := by
    rw [World.retyped, hItem, Option.any_some, if_neg]
    simpa using hOwn
  rw [hKept] at hStarted
  obtain ⟨u, hShown, hAlike⟩ := Graph.Shows.wound hStarted.wound _ _ hShows
  refine ⟨u, hShown, ?_⟩
  obtain ⟨i', contents⟩ := t
  obtain ⟨j, inner⟩ := u
  refine ⟨hAlike.1.typeId.trans hOwn, ?_⟩
  refine ItemTree.RelatedAll.trans ?_ contents us inner hBack hAlike.2
  rintro old read new ⟨_, _, hRestored, _⟩ hNew
  exact hNew.typeId.trans hRestored.typeId

/-- **What does not move stays where it is**, with what lies in it: giving it what a tree says, it
has time left afterwards as it had before. -/
theorem bindFixture_returns (hs : s.world.Sound) (hc : s.world.catalog = c)
    (hReturns : t.Every (Item.Returns c)) (hFits : (t.record c).Fits c) {id : ItemId} {n : Node}
    (hn : s.world.graph.node? id = some n)
    (hHolds : (t.record c).children.isSome → n.item.isContainer = true)
    (hTicking : s.world.graph.AllWithin (Item.Ticking c) id) :
    ∃ s', bindFixture id (t.record c) s = (.ok (), s') ∧ Bound c id t s s' := by
  subst hc
  have hHere : s.world.graph.item? id = some n.item := Graph.item?_eq_some.2 ⟨n, hn, rfl⟩
  -- First the fields are made to the item, then its contents make way.
  generalize hFitted : n.item.applyAll s.world.catalog (t.record s.world.catalog).updates = fitted
  have hUpdated := keeps_updated s.world id (t.record s.world.catalog)
  have hNode : (s.world.updated id (t.record s.world.catalog)).graph.node? id
      = some { n with item := fitted } := by
    rw [node?_updated hn, hFitted]
  have hStill : (t.record s.world.catalog).children.isSome → fitted.isContainer = true := by
    rw [← hFitted, isContainer_applyAll]
    exact hHolds
  obtain ⟨s₁, hReplace, hRefilled⟩ := replaceContents_returns
    (s := { s with world := s.world.updated id (t.record s.world.catalog) })
    (hUpdated.sound hs) hUpdated.catalog hReturns hFits hNode hStill (below_updated _ hTicking)
  obtain ⟨k, hItem⟩ := hRefilled.item
  -- Then it gets the type.
  have hType : (t.record s.world.catalog).typeId = t.item.typeId := by
    cases t
    rfl
  have hRetyped : Retyped s.world.catalog id t.item.typeId s₁.world
      (s₁.world.retyped id t.item.typeId) := by
    obtain ⟨i, contents⟩ := t
    obtain ⟨host, hHost, _⟩ := hReturns.1.storable.typed
    have hLasts := lasting_of_ticking (hTicking id n.item .refl hHere) hReturns.1.unspent hHost k
      contents hFitted.symm
    exact retyped_of_lasting hRefilled.catalog hItem hRefilled.below hLasts.1 hLasts.2
  -- And its time starts.
  have hCatalog : (s₁.world.retyped id t.item.typeId).catalog = s.world.catalog :=
    hRetyped.catalog.trans hRefilled.catalog
  have hLasting := hRetyped.within
  rw [← hCatalog] at hLasting
  have hStarted := started_register hLasting
  refine ⟨_, bindFixture_eq hReplace, ?_⟩
  rw [hType]
  constructor
  case claimed => exact congrArg (· ++ [id]) hRefilled.claimed
  case typeId =>
    intro i hi
    obtain ⟨i', hi', hAlike⟩ := hStarted.wound.of_item? hi
    exact hAlike.typeId.trans (hRetyped.typeId i' hi')
  case confined =>
    intro S T hRegion hid
    have hFirst : Graph.Confined S T s.world.graph
        (s.world.updated id (t.record s.world.catalog)).graph := by
      rw [graph_updated]
      exact Graph.confined_update hRegion hid _
    have hSecond := hFirst.trans (hRefilled.confined S T hFirst.region hid)
    have hThird := hSecond.trans (hRetyped.confined S T hSecond.region hid)
    exact hThird.trans (hStarted.confined S T hThird.region hid)
  case tree =>
    intro hSame hChildren
    refine hRefilled.tree ?_ hChildren hStarted
    rw [← hFitted, Item.typeId_applyAll]
    exact hSame n.item hHere

end Restoring

end World

end Homestead
