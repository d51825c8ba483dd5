/-
  Homestead.Proofs.Graph.Regions
  ──────────────────────────────
  **WHAT A CHANGE LEAVES ALONE.**

  A region is a set of items that has, with an item, all that lies in it,
  and all numbers that are still to be given out.  A change that is
  confined to a region leaves every node outside as it is; so the trees
  outside are as they were.  Two items on tiles have nothing in common that
  lies in both.

  Main results:
    * `Confined.trans` — one confined change after another;
    * `ShowsAll.leftAlone` — trees outside a region stay;
    * `AllWithin.leftAlone` — so does what holds of all that lies in an item;
    * `Consistent.eq_of_reach` — what lies on tiles lies apart.
-/
import Homestead.Proofs.Graph.Plant
import Homestead.Proofs.Graph.Steps

namespace Homestead

namespace Graph

variable {g g' g'' : Graph} {S : ItemId → Prop} {T : Position → Prop}

/-! ## §1. Regions. -/

/-- The set has all that lies in its items, and all numbers that are still to be given out. -/
structure Region (g : Graph) (S : ItemId → Prop) : Prop where
  /-- What lies in an item of the set is in the set. -/
  inward : ∀ inner outer, g.Lies inner outer → S outer → S inner
  /-- New numbers are in the set. -/
  fresh : ∀ j, g.next ≤ j → S j

/-- `j` is the item or lies in it, however deep. -/
abbrev Reaches (g : Graph) (j id : ItemId) : Prop :=
  Relation.ReflTransGen g.Lies j id

/-- What reaches an item of a region lies in the region. -/
theorem Region.of_reaches (h : g.Region S) {j id : ItemId} (hReach : g.Reaches j id)
    (hid : S id) : S j := by
  induction hReach using Relation.ReflTransGen.head_induction_on with
  | refl => exact hid
  | head hLies _ ih => exact h.inward _ _ hLies ih

/-- What lies in an item that exists exists. -/
theorem Consistent.reaches_lt (hg : g.Consistent) {j id : ItemId} (hReach : g.Reaches j id)
    (hid : id < g.next) : j < g.next := by
  rcases Relation.ReflTransGen.cases_head hReach with rfl | ⟨k, hLies, _⟩
  · exact hid
  · obtain ⟨n, hn, _⟩ := hg.linked _ _ hLies
    exact hg.numbered j n hn

/-- The numbers that are still to be given out. -/
theorem Consistent.region_fresh (hg : g.Consistent) : g.Region fun j => g.next ≤ j where
  inward inner outer hLies hOuter := by
    obtain ⟨n, hn, hLink⟩ := hg.linked _ _ hLies
    exact absurd (hg.linkNumbered inner n outer hn hLink) (Nat.not_lt.2 hOuter)
  fresh _ hj := hj

/-- Some items with all that lies in them, and the numbers that are still to be given out. -/
def Around (g : Graph) (roots : ItemId → Prop) (j : ItemId) : Prop :=
  g.next ≤ j ∨ ∃ id, roots id ∧ g.Reaches j id

/-- Some items with all that lies in them, and the numbers still to be given out, are a region. -/
theorem Consistent.region_around (hg : g.Consistent) (roots : ItemId → Prop) :
    g.Region (g.Around roots) where
  inward inner outer hLies hOuter := by
    rcases hOuter with hNew | ⟨id, hid, hReach⟩
    · exact .inl (hg.region_fresh.inward inner outer hLies hNew)
    · exact .inr ⟨id, hid, hReach.head hLies⟩
  fresh _ hj := .inl hj

/-- **What lies on tiles lies apart**: nothing lies in two items on tiles. -/
theorem Consistent.eq_of_reach (hg : g.Consistent) {a b j : ItemId} {p q : Position}
    (ha : a ∈ g.contents (.tile p)) (hb : b ∈ g.contents (.tile q))
    (hja : g.Reaches j a) (hjb : g.Reaches j b) : a = b := by
  -- What lies on a tile has the tile for its holder, and lies in no item.
  have hTop : ∀ {x y : ItemId} {r : Position}, x ∈ g.contents (.tile r) → ¬ g.Lies x y := by
    intro x y r hx hLies
    cases hg.holder_unique hx hLies
  induction hja using Relation.ReflTransGen.head_induction_on with
  | refl =>
    rcases Relation.ReflTransGen.cases_head hjb with rfl | ⟨k, hLies, _⟩
    · rfl
    · exact absurd hLies (hTop ha)
  | head hLies _ ih =>
    rcases Relation.ReflTransGen.cases_head hjb with rfl | ⟨k, hLies', hRest⟩
    · exact absurd hLies (hTop hb)
    · -- Both ways out take the same first step.
      obtain rfl := Holder.item.inj (hg.holder_unique hLies hLies')
      exact ih hRest

/-- What lies in an item on a tile does not lie in other items on tiles. -/
theorem Consistent.apart (hg : g.Consistent) {roots : ItemId → Prop} {id : ItemId} {q : Position}
    (hid : id ∈ g.contents (.tile q))
    (hRoots : ∀ root, roots root → root ≠ id ∧ ∃ p, root ∈ g.contents (.tile p)) {j : ItemId}
    (hReach : g.Reaches j id) : ¬ g.Around roots j := by
  rintro (hNew | ⟨root, hRoot, hReach'⟩)
  · obtain ⟨n, hn, _⟩ := hg.linked _ _ hid
    have hOld := hg.reaches_lt hReach (hg.numbered id n hn)
    exact Nat.not_lt.2 hNew hOld
  · obtain ⟨hne, p, hMem⟩ := hRoots root hRoot
    exact hne (hg.eq_of_reach hMem hid hReach' hReach)

/-! ## §2. Confined changes. -/

/-- `g'` differs from `g` in some items and on some tiles only. -/
structure Spared (S : ItemId → Prop) (T : Position → Prop) (g g' : Graph) : Prop where
  /-- Outside nodes are as before. -/
  outside : ∀ j, ¬ S j → g'.node? j = g.node? j
  /-- Other tiles are as before. -/
  tiles : ∀ p, ¬ T p → g'.tile? p = g.tile? p
  /-- Numbers were given out. -/
  next_le : g.next ≤ g'.next

/-- `g'` differs from `g` in a region and on some tiles only. -/
structure Confined (S : ItemId → Prop) (T : Position → Prop) (g g' : Graph) : Prop
    extends Spared S T g g' where
  /-- The set is a region still. -/
  region : g'.Region S

theorem Confined.refl (h : g.Region S) (T : Position → Prop) : Confined S T g g where
  region := h
  outside _ _ := rfl
  tiles _ _ := rfl
  next_le := Nat.le_refl _

/-- **One confined change after another.** -/
theorem Confined.trans (h : Confined S T g g') (h' : Confined S T g' g'') :
    Confined S T g g'' where
  region := h'.region
  outside j hj := (h'.outside j hj).trans (h.outside j hj)
  tiles p hp := (h'.tiles p hp).trans (h.tiles p hp)
  next_le := Nat.le_trans h.next_le h'.next_le

/-- A tile that is spared holds what it held. -/
theorem Spared.contents_tile (h : Spared S T g g') {p : Position} (hp : ¬ T p) :
    g'.contents (.tile p) = g.contents (.tile p) := by
  rw [contents, contents, h.tiles p hp]

/-- Changes of items in the region that leave links and lists alone. -/
theorem confined_of_sameLinks (h : g.Region S) (hLinks : SameLinks g g')
    (hTiles : g'.tiles = g.tiles) (hNodes : ∀ j, ¬ S j → g'.node? j = g.node? j) :
    Confined S T g g' where
  region := by
    constructor
    · intro inner outer hLies hOuter
      rw [Lies, hLinks.contents_eq] at hLies
      exact h.inward inner outer hLies hOuter
    · intro j hj
      rw [hLinks.next] at hj
      exact h.fresh j hj
  outside := hNodes
  tiles p _ := tile?_eq_of_tiles hTiles p
  next_le := Nat.le_of_eq hLinks.next.symm

/-- A change of data inside of a region is confined to it. -/
theorem confined_update (h : g.Region S) {id : ItemId} (hid : S id) (f : Item → Item) :
    Confined S T g (g.update id f) := by
  refine confined_of_sameLinks h (sameLinks_update g id f) (tiles_update g id f) ?_
  intro j hj
  rw [node?_update, if_neg]
  rintro rfl
  exact hj hid

/-- A spill inside of a region is confined to it: what is spilled lies in it too. -/
theorem confined_spill (h : g.Region S) {id : ItemId} (hid : S id) (item : Item) :
    Confined S T g (g.spill id item) where
  region := by
    constructor
    · intro inner outer hLies hOuter
      rw [Lies, contents_spill] at hLies
      split_ifs at hLies
      · cases hLies
      · exact h.inward inner outer hLies hOuter
    · intro j hj
      rw [next_spill] at hj
      exact h.fresh j hj
  outside j hj := by
    have hne : j ≠ id := by
      rintro rfl
      exact hj hid
    -- What is let go lies in the item, and so in the region.
    have hNot : ¬ g.Lies j id := fun hLies => hj (h.inward j id hLies hid)
    rw [node?_spill]
    cases g.node? j with
    | none => rfl
    | some n => simp [hne, hNot]
  tiles p _ := tile?_eq_of_tiles (tiles_spill id item) p
  next_le := Nat.le_of_eq (next_spill id item).symm

/-- A change of type inside of a region is confined to it. -/
theorem confined_retype (h : g.Region S) {id : ItemId} (hid : S id) (c : Catalog)
    (newType : TypeId) : Confined S T g (g.retype c id newType) := by
  obtain hSame | ⟨n, -, ⟨-, hUpdated⟩ | hSpilt⟩ := g.retype_cases c id newType
  · rw [hSame]
    exact Confined.refl h T
  · rw [hUpdated]
    exact confined_update h hid _
  · rw [hSpilt]
    exact confined_spill h hid _

/-- Another list for a container of the region, with items of the region in it. -/
theorem confined_relist (h : g.Region S) {c id : ItemId} {ids : List ItemId}
    (link : Option Holder) (hc : S c) (hid : S id) (hids : ∀ j ∈ ids, S j) :
    Confined S T g (g.relist (.item c) ids id link) where
  region := by
    constructor
    · intro inner outer hLies hOuter
      rw [Lies, contents, node?_relist] at hLies
      cases hn : g.node? outer with
      | none =>
        rw [hn] at hLies
        cases hLies
      | some n =>
        rw [hn] at hLies
        have hList : inner ∈ if Holder.item c = .item outer then ids else n.contents := hLies
        -- The list that has changed is of the region; the others are as before.
        split_ifs at hList
        · exact hids inner hList
        · refine h.inward inner outer ?_ hOuter
          rw [Lies, g.contents_item hn]
          exact hList
    · intro j hj
      rw [next_relist] at hj
      exact h.fresh j hj
  outside j hj := by
    -- What lies outside is neither the item nor its new holder.
    have hne : j ≠ id := by
      rintro rfl
      exact hj hid
    have hNot : Holder.item c ≠ .item j := by
      intro hEq
      exact hj (Holder.item.inj hEq ▸ hc)
    rw [node?_relist]
    cases g.node? j with
    | none => rfl
    | some n => simp only [Option.map_some, if_neg hne, if_neg hNot]
  tiles p _ := by
    rw [relist, tile?_eq_of_tiles (tiles_setHolder _ _ _)]
    rw [tile?_setContents, if_neg (by simp)]
  next_le := Nat.le_of_eq (next_relist _ _ _ _).symm

/-- Another list for a tile, and another link for an item of the region. -/
theorem confined_relist_tile (h : g.Region S) {p : Position} {id : ItemId} (ids : List ItemId)
    (link : Option Holder) (hp : T p) (hid : S id) :
    Confined S T g (g.relist (.tile p) ids id link) where
  region := by
    constructor
    · intro inner outer hLies hOuter
      rw [Lies, contents, node?_relist] at hLies
      -- No list of an item has changed.
      refine h.inward inner outer ?_ hOuter
      rw [Lies, contents]
      cases hn : g.node? outer with
      | none =>
        rw [hn] at hLies
        cases hLies
      | some n =>
        rw [hn] at hLies
        exact hLies
    · intro j hj
      rw [next_relist] at hj
      exact h.fresh j hj
  outside j hj := by
    have hne : j ≠ id := by
      rintro rfl
      exact hj hid
    rw [node?_relist]
    cases g.node? j with
    | none => rfl
    | some n => simp [hne]
  tiles q hq := by
    have hne : Holder.tile p ≠ .tile q := by
      intro hEq
      exact hq (Holder.tile.inj hEq ▸ hp)
    rw [relist, tile?_eq_of_tiles (tiles_setHolder _ _ _), tile?_setContents, if_neg hne]
  next_le := Nat.le_of_eq (next_relist _ _ _ _).symm

/-- New nodes. -/
theorem confined_planted (hg : g.Consistent) (h : g.Region S) {holder : Option Holder}
    {ids : List ItemId} {ts : List ItemTree} (hPlanted : Planted g g' holder ids ts) :
    Confined S T g g' where
  region := by
    constructor
    · intro inner outer hLies hOuter
      by_cases hInner : inner < g.next
      · -- An old item lies where it lay.
        obtain ⟨n, hn, hLink⟩ := hPlanted.consistent.linked _ _ hLies
        rw [hPlanted.old inner hInner] at hn
        have hLt := hg.linkNumbered inner n outer hn hLink
        rw [Lies, contents, hPlanted.old outer hLt] at hLies
        exact h.inward inner outer hLies hOuter
      · exact h.fresh inner (Nat.not_lt.1 hInner)
    · intro j hj
      exact h.fresh j (Nat.le_trans hPlanted.next_le hj)
  outside j hj := hPlanted.old j (Nat.not_le.1 fun hLe => hj (h.fresh j hLe))
  tiles p _ := tile?_eq_of_tiles hPlanted.tiles p
  next_le := hPlanted.next_le

/-! ## §3. What is left alone. -/

/-- The item is as before, and so is all that lies in it. -/
def LeftAlone (g g' : Graph) (id : ItemId) : Prop :=
  ∀ j, g.Reaches j id → g'.node? j = g.node? j

/-- An item none of whose insides is in the set is left alone. -/
theorem Spared.leftAlone (h : Spared S T g g') {id : ItemId}
    (hOutside : ∀ j, g.Reaches j id → ¬ S j) : g.LeftAlone g' id :=
  fun j hReach => h.outside j (hOutside j hReach)

/-- Nothing comes to lie in an item that is left alone. -/
theorem LeftAlone.reaches {id j : ItemId} (h : g.LeftAlone g' id) (hReach : g'.Reaches j id) :
    g.Reaches j id := by
  -- From the item inwards: what stands in the list of an item that has not changed stood there.
  induction hReach using Relation.ReflTransGen.head_induction_on with
  | refl => exact .refl
  | head hLies _ ih =>
    refine ih.head ?_
    rwa [Lies, contents, h _ ih] at hLies

/-- What two changes leave alone they leave alone together. -/
theorem LeftAlone.trans {id : ItemId} (h : g.LeftAlone g' id) (h' : g'.LeftAlone g'' id) :
    g.LeftAlone g'' id := by
  intro j hReach
  -- What lay in the item lies in it still, since every list on the way is as before.
  have hStill : g'.Reaches j id := by
    induction hReach using Relation.ReflTransGen.head_induction_on with
    | refl => exact .refl
    | head hLies hRest ih =>
      refine ih.head ?_
      rwa [Lies, contents, h _ hRest]
  exact (h' j hStill).trans (h j hReach)

/-- An item that is left alone has its data still. -/
theorem LeftAlone.item?_eq {id : ItemId} (h : g.LeftAlone g' id) : g'.item? id = g.item? id := by
  rw [item?, item?, h id .refl]

/-- **Trees of items that are left alone stay as they are.** -/
theorem ShowsAll.leftAlone {ids : List ItemId} {ts : List ItemTree} (hShows : g.ShowsAll ids ts)
    (h : ∀ id ∈ ids, g.LeftAlone g' id) : g'.ShowsAll ids ts := by
  refine ShowsAll.of_agree ts ids ?_ hShows
  intro id hid j hj n hn
  exact ⟨n, by rw [h id hid j hj, hn], rfl, rfl⟩

/-- An item that is left alone shows its tree still. -/
theorem Shows.leftAlone {id : ItemId} {t : ItemTree} (hShows : g.Shows id t)
    (h : g.LeftAlone g' id) : g'.Shows id t := by
  have hOne : g.ShowsAll [id] [t] := ⟨hShows, trivial⟩
  refine (hOne.leftAlone ?_).1
  intro id' hMem
  rw [List.mem_singleton.1 hMem]
  exact h

/-- Where only what lies in an item may change, the same items lie on every tile. -/
theorem Consistent.contents_of_confined (hg : g.Consistent) {id : ItemId}
    (hConfined : ∀ (S : ItemId → Prop) (T : Position → Prop), g.Region S → S id →
      Confined S T g g') (q : Position) : g'.contents (.tile q) = g.contents (.tile q) := by
  have hAround := hConfined _ (fun _ => False) (hg.region_around (· = id)) (.inr ⟨id, rfl, .refl⟩)
  exact hAround.contents_tile fun hNone => hNone

/-- If the item lies on a tile, the others there are left alone. -/
theorem Consistent.leftAlone_of_confined (hg : g.Consistent) {id other : ItemId} {p : Position}
    (hConfined : ∀ (S : ItemId → Prop) (T : Position → Prop), g.Region S → S id →
      Confined S T g g') (hid : id ∈ g.contents (.tile p)) (hOther : other ∈ g.contents (.tile p))
    (hne : other ≠ id) : g.LeftAlone g' other := by
  have hAround := hConfined _ (fun _ => False) (hg.region_around (· = id)) (.inr ⟨id, rfl, .refl⟩)
  refine hAround.leftAlone fun _ hReach => hg.apart hOther ?_ hReach
  rintro root rfl
  exact ⟨hne.symm, p, hid⟩

/-- The tile is as before, and so is all that lies on it. -/
structure SameTile (g g' : Graph) (p : Position) : Prop where
  /-- The same items lie on it, in the same order. -/
  contents : g'.contents (.tile p) = g.contents (.tile p)
  /-- They are as before, with all that lies in them. -/
  leftAlone : ∀ id ∈ g.contents (.tile p), g.LeftAlone g' id

theorem SameTile.refl (g : Graph) (p : Position) : SameTile g g p where
  contents := rfl
  leftAlone _ _ _ _ := rfl

/-- A tile that two changes keep is kept by them together. -/
theorem SameTile.trans {p : Position} (h : SameTile g g' p) (h' : SameTile g' g'' p) :
    SameTile g g'' p where
  contents := h'.contents.trans h.contents
  leftAlone id hid := (h.leftAlone id hid).trans (h'.leftAlone id (h.contents ▸ hid))

/-- What lies on a tile does not count for trees. -/
theorem ShowsAll.relist_tile {ids : List ItemId} {ts : List ItemTree} (h : g.ShowsAll ids ts)
    (p : Position) (onTile : List ItemId) (id : ItemId) (link : Option Holder) :
    (g.relist (.tile p) onTile id link).ShowsAll ids ts := by
  refine ShowsAll.of_agree ts ids ?_ h
  intro _ _ j _ n hn
  have hNot : Holder.tile p ≠ .item j := fun h => by cases h
  rw [node?_relist, hn]
  simp only [Option.map_some, if_neg hNot]
  exact ⟨_, rfl, rfl, rfl⟩

/-! ## §4. All that lies in an item. -/

/-- The item and all that lies in it have a property. -/
def AllWithin (P : Item → Prop) (g : Graph) (id : ItemId) : Prop :=
  ∀ j i, g.Reaches j id → g.item? j = some i → P i

variable {P : Item → Prop}

/-- What is true throughout an item is true throughout what lies in it. -/
theorem AllWithin.inner {id child : ItemId} (h : g.AllWithin P id) (hLies : g.Lies child id) :
    g.AllWithin P child :=
  fun j i hReach hi => h j i (hReach.tail hLies) hi

/-- What holds of all that lies in an item that is left alone holds still. -/
theorem AllWithin.leftAlone {id : ItemId} (hWithin : g.AllWithin P id) (h : g.LeftAlone g' id) :
    g'.AllWithin P id := by
  intro j i hReach hi
  have hBefore := h.reaches hReach
  rw [item?, h j hBefore] at hi
  exact hWithin j i hBefore hi

mutual

/-- What holds of all items of a tree holds of all that lies in the item that shows it. -/
theorem Shows.allWithin : ∀ (t : ItemTree) (id : ItemId), (t.Every fun i _ => P i) →
    g.Shows id t → g.AllWithin P id
  | .node _ cs, id, hEvery, ⟨n, hn, hItem, hAll⟩ => by
    intro j i hReach hi
    rcases Relation.ReflTransGen.cases_tail hReach with rfl | ⟨k, hInner, hLies⟩
    · rw [item?, hn, Option.map_some, hItem] at hi
      obtain rfl := Option.some_inj.1 hi
      exact hEvery.1
    · rw [Lies, g.contents_item hn] at hLies
      exact ShowsAll.allWithin cs n.contents hEvery.2 hAll k hLies j i hInner hi

/-- What is true throughout a tree is true of all that lies in the item that shows it. -/
theorem ShowsAll.allWithin : ∀ (ts : List ItemTree) (ids : List ItemId),
    ItemTree.EveryOf (fun i _ => P i) ts → g.ShowsAll ids ts → ∀ id ∈ ids, g.AllWithin P id
  | [], [], _, _, _, hid => absurd hid List.not_mem_nil
  | [], _ :: _, _, h, _, _ => h.elim
  | _ :: _, [], _, h, _, _ => h.elim
  | t :: ts, j :: ids, hEvery, h, id, hid => by
    rcases List.mem_cons.1 hid with rfl | hRest
    · exact Shows.allWithin t id hEvery.1 h.1
    · exact ShowsAll.allWithin ts ids hEvery.2 h.2 id hRest

end

/-- All that lies in the item has a property. -/
def AllBelow (P : Item → Prop) (g : Graph) (id : ItemId) : Prop :=
  ∀ j i, j ≠ id → g.Reaches j id → g.item? j = some i → P i

/-- With the item itself, what is true below it is true throughout it. -/
theorem AllBelow.allWithin {id : ItemId} (h : g.AllBelow P id)
    (hHere : ∀ i, g.item? id = some i → P i) : g.AllWithin P id := by
  intro j i hReach hi
  by_cases hj : j = id
  · exact hHere i (hj ▸ hi)
  · exact h j i hj hReach hi

/-- What is true throughout each of the contents is true below the item. -/
theorem allBelow_of_contents {id : ItemId}
    (h : ∀ child ∈ g.contents (.item id), g.AllWithin P child) : g.AllBelow P id := by
  intro j i hj hReach hi
  rcases Relation.ReflTransGen.cases_tail hReach with rfl | ⟨child, hInner, hLies⟩
  · exact absurd rfl hj
  · exact h child hLies j i hInner hi

/-- A change of the item itself that puts nothing into anything. -/
theorem AllBelow.of_change {id : ItemId} (h : g.AllBelow P id)
    (hLies : ∀ inner outer, g'.Lies inner outer → g.Lies inner outer)
    (hItems : ∀ j, j ≠ id → g'.item? j = g.item? j) : g'.AllBelow P id := by
  intro j i hj hReach hi
  exact h j i hj (Relation.ReflTransGen.mono hLies _ _ hReach) (hItems j hj ▸ hi)

end Graph

end Homestead
