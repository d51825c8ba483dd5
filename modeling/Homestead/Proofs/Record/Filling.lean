/-
  Homestead.Proofs.Record.Filling
  ───────────────────────────────
  **RECORDS THAT FIT ARE BUILT.**

  A record fits a catalog when its mark says whether its type can be used,
  and when it has contents only where the catalog does not rule them out.
  Building a record that fits never fails, and neither does filling a
  container with its contents: new items come behind what the container
  holds already, and show what was built.

  Main results:
    * `build_of_fits`, `buildAll_of_fits` — building never fails;
    * `fill_of_fits` — filling never fails, and what it does.
-/
import Homestead.Record.Decode
import Homestead.Proofs.Graph.Success

namespace Homestead

namespace Record

variable {c : Catalog}

/-! ## §1. Records that fit. -/

mutual

/-- The record says of its type what the catalog says, and so does all that it holds. -/
def Fits (c : Catalog) : Record → Prop
  | mk typeId known _ none => known = (c.usable? typeId).isSome
  | mk typeId known _ (some children) =>
    known = (c.usable? typeId).isSome
      ∧ mayHold ((c.usable? typeId).map (·.variant)) = true ∧ FitAll c children

/-- All records fit. -/
def FitAll (c : Catalog) : List Record → Prop
  | [] => True
  | r :: rs => r.Fits c ∧ FitAll c rs

end

/-- A record that fits knows whether its type is usable. -/
theorem Fits.known_eq {r : Record} (h : r.Fits c) : r.known = (c.usable? r.typeId).isSome := by
  cases r with
  | mk typeId known us children =>
    cases children with
    | none => exact h
    | some rs => exact h.1

/-- A record that fits has contents only where its type may hold them, and they fit. -/
theorem Fits.of_children {r : Record} (h : r.Fits c) {rs : List Record}
    (hChildren : r.children = some rs) :
    mayHold ((c.usable? r.typeId).map (·.variant)) = true ∧ FitAll c rs := by
  cases r with
  | mk typeId known us children =>
    obtain rfl : children = some rs := hChildren
    exact h.2

/-- A new item is a container where contents are expected. -/
theorem isContainer_of_mayHold {r : Record} {item : Item} (h : newItem? c r = some item)
    (hMay : mayHold ((c.usable? r.typeId).map (·.variant)) = true) : item.isContainer = true := by
  obtain ⟨t, ht, rfl⟩ := newItem?_eq_some h
  rw [ht] at hMay
  show ((Item.ofType t 0).applyAll c r.updates).variant.isContainer = true
  rw [Variant.isContainer_eq_of_sameKind (Item.sameKind_variant_applyAll c _ _),
    Item.variant_ofType]
  exact hMay

mutual

/-- **A record that fits is built**, if its type can be used, or passed over. -/
theorem build_of_fits : ∀ r : Record, r.Fits c → ∃ o tally, r.build c = (.ok o, tally)
  | mk typeId known us none, _ => by
    rw [build]
    cases newItem? c (mk typeId known us none) with
    | none => exact ⟨none, _, rfl⟩
    | some item => exact ⟨some (.node item []), _, rfl⟩
  | mk typeId known us (some rs), h => by
    rw [build]
    cases hNew : newItem? c (mk typeId known us none) with
    | none => exact ⟨none, _, rfl⟩
    | some item =>
      -- A record with contents fits only if its type may hold them.
      have hHolds := isContainer_of_mayHold hNew h.2.1
      obtain ⟨ts, tally, hBuilt⟩ := buildAll_of_fits rs h.2.2
      dsimp only
      rw [hHolds, hBuilt]
      exact ⟨some (.node item ts), _, rfl⟩

/-- Records that fit are built, by induction over them. -/
theorem buildAll_of_fits : ∀ rs : List Record, FitAll c rs →
    ∃ ts tally, buildAll c rs = (.ok ts, tally)
  | [], _ => ⟨[], {}, rfl⟩
  | r :: rs, h => by
    obtain ⟨o, tally, hBuilt⟩ := build_of_fits r h.1
    obtain ⟨ts, more, hRest⟩ := buildAll_of_fits rs h.2
    rw [buildAll, hBuilt]
    dsimp only
    rw [hRest]
    exact ⟨o.toList ++ ts, _, rfl⟩

end

end Record

namespace Graph

variable {g g' g'' : Graph}

/-! ## §2. A container that grows. -/

/-- `g'` is `g` with new items behind those that a container holds. -/
structure Grown (g g' : Graph) (id : ItemId) (ids : List ItemId) : Prop where
  /-- The graph is consistent. -/
  consistent : g'.Consistent
  /-- The tiles are as before. -/
  tiles : g'.tiles = g.tiles
  /-- Numbers were given out. -/
  next_le : g.next ≤ g'.next
  /-- The other nodes are as before. -/
  old : ∀ j, j < g.next → j ≠ id → g'.node? j = g.node? j
  /-- The items are new. -/
  new : ∀ j ∈ ids, g.next ≤ j
  /-- The container differs in what is still to come. -/
  node : ∃ n k, g.node? id = some n ∧ g'.node? id = some { n with
    item := { n.item with variant := n.item.variant.setPending k }, contents := n.contents ++ ids }

/-- The later count of missing entries is the one that stays. -/
theorem Variant.setPending_setPending (v : Variant) (m n : UInt32) :
    (v.setPending m).setPending n = v.setPending n := by
  cases v <;> rfl

/-- A container that grows twice has grown by both. -/
theorem Grown.trans {id : ItemId} {ids ids' : List ItemId} (h : Grown g g' id ids)
    (h' : Grown g' g'' id ids') : Grown g g'' id (ids ++ ids') where
  consistent := h'.consistent
  tiles := h'.tiles.trans h.tiles
  next_le := Nat.le_trans h.next_le h'.next_le
  old j hj hne := by
    rw [h'.old j (Nat.lt_of_lt_of_le hj h.next_le) hne, h.old j hj hne]
  new j hj := by
    rcases List.mem_append.1 hj with hj | hj
    · exact h.new j hj
    · exact Nat.le_trans h.next_le (h'.new j hj)
  -- Only the second number of what is expected is left, and both lists of what came in.
  node := by
    obtain ⟨n, k, hn, hn'⟩ := h.node
    obtain ⟨m, k', hm, hm'⟩ := h'.node
    obtain rfl := Option.some_inj.1 (hn'.symm.trans hm)
    refine ⟨n, k', hn, ?_⟩
    rw [hm', Variant.setPending_setPending, List.append_assoc]

/-- Changing how many items are still to come. -/
theorem Consistent.grown_setPending (hg : g.Consistent) {id : ItemId} {n : Node}
    (hn : g.node? id = some n) (f : Item → UInt32) :
    Grown g (g.update id fun i => { i with variant := i.variant.setPending (f i) }) id [] where
  consistent := hg.setPending id f
  tiles := tiles_update g id _
  next_le := Nat.le_of_eq (next_update g id _).symm
  old j _ hne := by rw [node?_update, if_neg hne]
  new _ h := absurd h List.not_mem_nil
  node := by
    refine ⟨n, f n.item, hn, ?_⟩
    rw [node?_update, if_pos rfl, hn, List.append_nil]
    rfl

/-- Counting down lets a container grow by nothing. -/
theorem Consistent.grown_countDown (hg : g.Consistent) {id : ItemId} {n : Node}
    (hn : g.node? id = some n) : Grown g (Record.countDown g id) id [] := by
  -- An item that nothing can come to is left alone, which setting nothing does too.
  let fewer (i : Item) : UInt32 := i.variant.pending.elim 0 fun k => if k = 0 then 0 else k - 1
  have hSame : Record.countDown g id
      = g.update id fun i => { i with variant := i.variant.setPending (fewer i) } := by
    unfold Record.countDown
    congr 1
    funext i
    obtain ⟨typeId, count, attributes, variant⟩ := i
    cases variant <;> rfl
  rw [hSame]
  exact hg.grown_setPending hn _

/-- `g'` is `g` with a new tree that lies nowhere. -/
structure Made (g g' : Graph) (id : ItemId) (t : ItemTree) : Prop where
  /-- The graph is consistent. -/
  consistent : g'.Consistent
  /-- The tiles are as before. -/
  tiles : g'.tiles = g.tiles
  /-- Numbers were given out. -/
  next_le : g.next ≤ g'.next
  /-- The old nodes are as before. -/
  old : ∀ j, j < g.next → g'.node? j = g.node? j
  /-- The root is new and lies nowhere. -/
  root : g.next ≤ id ∧ ∃ n, g'.node? id = some n ∧ n.holder = none
  /-- The root shows the tree. -/
  shows : g'.Shows id t

/-- A tree that is planted with no holder is made. -/
theorem Planted.made {id : ItemId} {t : ItemTree} (h : Planted g g' none [id] [t]) :
    Made g g' id t where
  consistent := h.consistent
  tiles := h.tiles
  next_le := h.next_le
  old := h.old
  root := h.root id List.mem_cons_self
  shows := h.shows.1

/-- Nothing old lies in what is new. -/
theorem Made.region {id : ItemId} {t : ItemTree} (h : Made g g' id t) (hg : g.Consistent) :
    g'.Region fun j => g.next ≤ j where
  inward inner outer hLies hOuter := by
    refine Nat.not_lt.1 fun hInner => ?_
    obtain ⟨m, hm, hHolder⟩ := h.consistent.linked _ _ hLies
    rw [h.old inner hInner] at hm
    exact Nat.not_le.2 (hg.linkNumbered inner m outer hm hHolder) hOuter
  fresh _ hj := Nat.le_trans h.next_le hj

/-- Putting a new tree at the end of a container. -/
theorem Made.put {new : ItemId} {t : ItemTree} (h : Made g g' new t) (hg : g.Consistent)
    {id : ItemId} {n : Node} (hn : g.node? id = some n) (hHolds : n.item.isContainer = true) :
    ∃ g'', g'.add (.item id) new = .ok g'' ∧ Grown g g'' id [new] ∧ g''.ShowsAll [new] [t]
      ∧ g''.item? id = some n.item := by
  obtain ⟨hNew, m, hm, hFree⟩ := h.root
  have hid : id < g.next := hg.numbered id n hn
  have hn' : g'.node? id = some n := by rw [h.old id hid, hn]
  -- The new tree lies in new numbers, so the container is no part of it.
  have hApart : ¬ g'.Reaches id new :=
    fun hReach => Nat.not_le.2 hid ((h.region hg).of_reaches hReach hNew)
  have hContainer : g'.isContainer id = true := by
    rw [isContainer, item?, hn']
    exact hHolds
  have hAdd := h.consistent.add_item hm hFree hContainer hApart
  have hne : id ≠ new := fun hEq => hApart (hEq ▸ .refl)
  refine ⟨_, hAdd, ?_, ?_, by rw [item?_relist, item?, hn']; rfl⟩
  · constructor
    case consistent => exact h.consistent.add hAdd
    case tiles =>
      rw [relist, tiles_setHolder]
      exact (tiles_updateNode _ id _).trans h.tiles
    case next_le =>
      rw [next_relist]
      exact h.next_le
    case old =>
      intro j hj hjid
      have hjNew : j ≠ new := fun hEq => Nat.not_le.2 hj (hEq ▸ hNew)
      have hjContainer : Holder.item id ≠ .item j := fun hEq => hjid (Holder.item.inj hEq).symm
      rw [node?_relist, h.old j hj]
      cases g.node? j with
      | none => rfl
      | some m => simp only [Option.map_some, if_neg hjNew, if_neg hjContainer]
    case new =>
      intro j hj
      rw [List.mem_singleton.1 hj]
      exact hNew
    case node =>
      refine ⟨n, (n.item.variant.pending).getD 0, hn, ?_⟩
      have hVariant : n.item.variant.setPending ((n.item.variant.pending).getD 0)
          = n.item.variant := by
        cases n.item.variant <;> rfl
      rw [node?_relist, hn', hVariant, g'.contents_item hn']
      simp only [Option.map_some, if_neg hne, if_true]
  · -- The list that is written is the container's, and nothing in the new tree is the container.
    refine ShowsAll.of_agree _ _ ?_ ⟨h.shows, trivial⟩
    intro j hj k hk m' hm'
    rw [List.mem_singleton.1 hj] at hk
    have hNot : Holder.item id ≠ .item k := fun hEq => hApart (Holder.item.inj hEq ▸ hk)
    rw [node?_relist, hm']
    exact ⟨_, rfl, rfl, (if_neg hNot).symm⟩

/-- Links of old nodes are as before. -/
theorem Grown.link {id : ItemId} {ids : List ItemId} (h : Grown g g' id ids) {j : ItemId}
    {m : Node} (hj : j < g.next) (hm : g'.node? j = some m) :
    ∃ m', g.node? j = some m' ∧ m'.holder = m.holder := by
  obtain ⟨n, k, hn, hn'⟩ := h.node
  by_cases hjid : j = id
  · rw [hjid, hn'] at hm
    obtain rfl := Option.some_inj.1 hm
    exact ⟨n, hjid ▸ hn, rfl⟩
  · exact ⟨m, (h.old j hj hjid) ▸ hm, rfl⟩

/-- What lies in a new item is new. -/
theorem Grown.region_new {id : ItemId} {ids : List ItemId} (h : Grown g g' id ids)
    (hg : g.Consistent) : g'.Region fun j => g.next ≤ j where
  inward inner outer hLies hOuter := by
    refine Nat.not_lt.1 fun hInner => ?_
    obtain ⟨m, hm, hHolder⟩ := h.consistent.linked _ _ hLies
    obtain ⟨m', hm', hSame⟩ := h.link hInner hm
    exact Nat.not_le.2 (hg.linkNumbered inner m' outer hm' (hSame.trans hHolder)) hOuter
  fresh _ hj := Nat.le_trans h.next_le hj

/-- What grows is confined to a region with the container. -/
theorem Grown.confined {id : ItemId} {ids : List ItemId} (h : Grown g g' id ids)
    (hg : g.Consistent) {S : ItemId → Prop} {T : Position → Prop} (hRegion : g.Region S)
    (hid : S id) : Confined S T g g' where
  region := by
    obtain ⟨n, k, hn, hn'⟩ := h.node
    constructor
    · intro inner outer hLies hOuter
      -- A new item belongs to every region; an old one lies where it did.
      by_cases hInner : inner < g.next
      · obtain ⟨m, hm, hHolder⟩ := h.consistent.linked _ _ hLies
        obtain ⟨m', hm', hSame⟩ := h.link hInner hm
        have hOld := hg.linkNumbered inner m' outer hm' (hSame.trans hHolder)
        by_cases hOuterId : outer = id
        · rw [Lies, hOuterId, g'.contents_item hn'] at hLies
          -- What has been added to the list is new.
          rcases List.mem_append.1 hLies with hMem | hMem
          · refine hRegion.inward inner id ?_ hid
            rw [Lies, g.contents_item hn]
            exact hMem
          · exact absurd hInner (Nat.not_lt.2 (h.new inner hMem))
        · refine hRegion.inward inner outer ?_ hOuter
          rwa [Lies, contents, h.old outer hOld hOuterId] at hLies
      · exact hRegion.fresh inner (Nat.not_lt.1 hInner)
    · intro j hj
      exact hRegion.fresh j (Nat.le_trans h.next_le hj)
  outside j hj := by
    refine h.old j (Nat.not_le.1 fun hLe => hj (hRegion.fresh j hLe)) ?_
    rintro rfl
    exact hj hid
  tiles p _ := tile?_eq_of_tiles h.tiles p
  next_le := h.next_le

/-- Trees that the container does not lie in are as before when it grows. -/
theorem Grown.keeps_shows {id : ItemId} {ids : List ItemId} (h : Grown g g' id ids)
    (hg : g.Consistent) {roots : List ItemId} {ts : List ItemTree}
    (hApart : ∀ root ∈ roots, ¬ g.Reaches id root) (hShows : g.ShowsAll roots ts) :
    g'.ShowsAll roots ts := by
  refine ShowsAll.of_agree ts roots ?_ hShows
  intro root hRoot j hReach m hm
  have hne : j ≠ id := by
    rintro rfl
    exact hApart root hRoot hReach
  exact ⟨m, by rw [h.old j (hg.numbered j m hm) hne, hm], rfl, rfl⟩

/-- What has come to a container still shows its trees once more has come. -/
theorem Grown.shows_append {id : ItemId} {ids ids' : List ItemId} {ts ts' : List ItemTree}
    (h : Grown g g' id ids) (hg : g.Consistent) (h' : Grown g' g'' id ids')
    (hShows : g'.ShowsAll ids ts) (hShows' : g''.ShowsAll ids' ts') :
    g''.ShowsAll (ids ++ ids') (ts ++ ts') := by
  refine showsAll_append (h'.keeps_shows h.consistent ?_ hShows) hShows'
  -- What has come is made of numbers that are new, and the container's is not.
  intro root hRoot hReach
  obtain ⟨n, _, hn, _⟩ := h.node
  have hNew := (h.region_new hg).of_reaches hReach (h.new root hRoot)
  exact Nat.not_le.2 (hg.numbered id n hn) hNew

end Graph

namespace Record

variable {c : Catalog}

open Homestead.Graph

/-! ## §3. Filling. -/

/-- **Filling a container with records that fit never fails**: what is built comes behind what the
container holds already. -/
theorem fillAll_of_fits (id : ItemId) (rs : List Record) (hFits : FitAll c rs) :
    ∀ {g : Graph} {n : Node} (tally : Tally), g.Consistent → g.node? id = some n →
      n.item.isContainer = true →
      ∃ tally' ts ids g', fillAll c id rs g tally = (.ok (), tally', g')
        ∧ (buildAll c rs).1 = .ok ts ∧ Grown g g' id ids ∧ g'.ShowsAll ids ts := by
  induction rs with
  | nil =>
    intro g n tally hg hn hHolds
    have hVariant : n.item.variant.setPending ((n.item.variant.pending).getD 0)
        = n.item.variant := by
      cases n.item.variant <;> rfl
    refine ⟨tally, [], [], g, rfl, rfl, ⟨hg, rfl, Nat.le_refl _, fun _ _ _ => rfl, ?_, ?_⟩, trivial⟩
    · exact fun j hj => absurd hj List.not_mem_nil
    · exact ⟨n, _, hn, by rw [hn, hVariant, List.append_nil]⟩
  | cons r rs ih =>
    intro g n tally hg hn hHolds
    -- The container stays one while it grows.
    have hStill : ∀ {g₁ : Graph} {ids : List ItemId}, Grown g g₁ id ids →
        ∃ n₁, g₁.node? id = some n₁ ∧ n₁.item.isContainer = true := by
      intro g₁ ids hGrown
      obtain ⟨m, k, hm, hm'⟩ := hGrown.node
      obtain rfl := Option.some_inj.1 (hn.symm.trans hm)
      exact ⟨_, hm', (Variant.isContainer_setPending n.item.variant k).trans hHolds⟩
    obtain ⟨o, more, hBuilt⟩ := build_of_fits r hFits.1
    -- Building the records gives the trees of the first, if any, and then the others.
    have hBuiltAll : ∀ {ts}, (buildAll c rs).1 = .ok ts →
        (buildAll c (r :: rs)).1 = .ok (o.toList ++ ts) := by
      intro ts hts
      rw [buildAll, hBuilt]
      dsimp only
      rw [hts]
      rfl
    rw [fillAll_cons, hBuilt]
    cases o with
    | none =>
      -- A record that gives no tree counts as one that has come.
      have hCount := hg.grown_countDown hn
      obtain ⟨n₁, hn₁, hHolds₁⟩ := hStill hCount
      obtain ⟨tally', ts, ids, g', hFill, hts, hGrown, hShows⟩ :=
        ih hFits.2 (tally + more) hCount.consistent hn₁ hHolds₁
      exact ⟨tally', ts, ids, g', hFill, hBuiltAll hts, hCount.trans hGrown, hShows⟩
    | some t =>
      have hTree := hollow_of_build r t (by rw [hBuilt])
      obtain ⟨g₁, hAdd, hGrown₁, hShows₁, _⟩ := (planted_create hg hTree).made.put hg hn hHolds
      obtain ⟨n₁, hn₁, _⟩ := hStill hGrown₁
      have hCount := hGrown₁.consistent.grown_countDown hn₁
      -- First the tree is put in, and then one less is to come.
      have hBoth := hGrown₁.trans hCount
      obtain ⟨n₂, hn₂, hHolds₂⟩ := hStill hBoth
      obtain ⟨tally', ts, ids, g', hFill, hts, hGrown, hShows⟩ :=
        ih hFits.2 (tally + more) hCount.consistent hn₂ hHolds₂
      refine ⟨tally', t :: ts, (g.create t).1 :: ids, g', ?_, hBuiltAll hts,
        hBoth.trans hGrown, hGrown₁.shows_append hg (hCount.trans hGrown) hShows₁ hShows⟩
      dsimp only
      rw [hAdd]
      exact hFill

/-- **Giving a container the contents of a record that fits never fails.** -/
theorem fill_of_fits {r : Record} (hFits : r.Fits c) {rs : List Record}
    (hChildren : r.children = some rs) {g : Graph} {id : ItemId} {n : Node} (hg : g.Consistent)
    (hn : g.node? id = some n) (hHolds : n.item.isContainer = true) :
    ∃ tally ts ids g', r.fill c g id = (.ok (), tally, g')
      ∧ (buildAll c rs).1 = .ok ts ∧ Grown g g' id ids ∧ g'.ShowsAll ids ts := by
  have hContainer : g.isContainer id = true := by
    rw [isContainer, item?, hn]
    exact hHolds
  -- What is still expected is noted first, which leaves the container as it was otherwise.
  have hPending := hg.grown_setPending hn fun _ => UInt32.ofNat rs.length
  obtain ⟨m, k, hm, hm'⟩ := hPending.node
  obtain rfl := Option.some_inj.1 (hn.symm.trans hm)
  obtain ⟨tally, ts, ids, g', hFill, hts, hGrown, hShows⟩ :=
    fillAll_of_fits id rs (hFits.of_children hChildren).2 {} hPending.consistent hm'
      ((Variant.isContainer_setPending n.item.variant k).trans hHolds)
  refine ⟨tally, ts, ids, g', ?_, hts, hPending.trans hGrown, hShows⟩
  unfold fill
  rw [hChildren]
  dsimp only
  rw [hContainer]
  exact hFill

end Record

end Homestead
