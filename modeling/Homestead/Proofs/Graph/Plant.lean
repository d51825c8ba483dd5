/-
  Homestead.Proofs.Graph.Plant
  ────────────────────────────
  **NEW NODES FOR A TREE.**

  Planting a tree gives out new numbers, leaves all nodes there were as
  they are, and links the new nodes among themselves.  While the contents
  of an item are planted, their links name a node that is not there yet;
  such links are dead, so the graph is consistent in between, too.

  Main results:
    * `Planted` — what planting trees has done;
    * `planted_create` — making a tree that lies nowhere;
    * `planted_clone` — making a copy of an item.
-/
import Homestead.Proofs.Graph.Trees

namespace Homestead

namespace Graph

variable {g g' g'' : Graph}

/-! ## §1. One more node. -/

/-- The graph with one more node. -/
def withNode (g : Graph) (id : ItemId) (n : Node) : Graph :=
  { g with nodes := g.nodes.insert id n }

/-- A node that is entered is found under its number. -/
theorem node?_withNode (id j : ItemId) (n : Node) :
    (g.withNode id n).node? j = if j = id then some n else g.node? j :=
  node?_insert g.nodes id j n

/-- A node that is entered brings its own list. -/
theorem contents_withNode {id : ItemId} (n : Node) (h : Holder) :
    (g.withNode id n).contents h = if h = .item id then n.contents else g.contents h := by
  cases h with
  | tile p =>
    rw [if_neg (by simp)]
    rfl
  | item j =>
    rw [contents, node?_withNode, contents]
    by_cases hj : j = id <;> simp [hj]

/-- The ranks once there is a node whose number was free. -/
theorem Consistent.exists_rank_withNode (hg : g.Consistent) {id : ItemId} {n : Node}
    (hNew : g.node? id = none) (hList : ∀ j ∈ n.contents, (g.node? j).isSome) :
    ∃ rank : ItemId → Nat, ∀ inner outer, (g.withNode id n).Lies inner outer →
      rank inner < rank outer := by
  obtain ⟨rank, hRank⟩ := hg.ranked
  -- The new node goes above all others.
  refine ⟨fun x => if x = id then g.ids.sup rank + 1 else rank x, ?_⟩
  intro inner outer hLies
  rw [Lies, contents_withNode] at hLies
  have hInner : (g.node? inner).isSome := by
    split_ifs at hLies with hh
    · exact hList inner hLies
    · obtain ⟨m, hm, _⟩ := hg.linked _ _ hLies
      rw [hm]
      rfl
  have hOther : inner ≠ id := by
    rintro rfl
    rw [hNew] at hInner
    cases hInner
  show (if inner = id then _ else _) < if outer = id then _ else _
  rw [if_neg hOther]
  split_ifs with hOuter
  · exact Nat.lt_succ_of_le (Finset.le_sup (mem_ids.2 hInner))
  · rw [if_neg (fun h => hOuter (Holder.item.inj h))] at hLies
    exact hRank inner outer hLies

/-- A node to which just the items of its list are linked already. -/
theorem Consistent.withNode (hg : g.Consistent) {id : ItemId} {n : Node}
    (hNew : g.node? id = none) (hNumber : id < g.next) (hNodup : n.contents.Nodup)
    (hList : ∀ j, j ∈ n.contents ↔ ∃ m, g.node? j = some m ∧ m.holder = some (.item id))
    (hHolds : n.contents ≠ [] → n.item.isContainer)
    (hHolder : ∀ h, n.holder = some h →
      ∃ c, h = .item c ∧ g.node? c = none ∧ c < g.next ∧ c ≠ id) :
    (g.withNode id n).Consistent := by
  -- No old node has the new number, so each old node is found as before.
  have hOther : ∀ {j m}, g.node? j = some m → j ≠ id := by
    rintro j m hj rfl
    rw [hNew] at hj
    cases hj
  constructor
  case linked =>
    intro h j hMem
    rw [contents_withNode] at hMem
    have hOld : ∃ m, g.node? j = some m ∧ m.holder = some h := by
      split_ifs at hMem with hh
      · rw [hh]
        exact (hList j).1 hMem
      · -- All other lists are the old ones.
        exact hg.linked h j hMem
    obtain ⟨m, hm, hLink⟩ := hOld
    exact ⟨m, by rw [node?_withNode, if_neg (hOther hm), hm], hLink⟩
  case listed =>
    intro j m h hm hLink hLive
    rw [node?_withNode] at hm
    rw [contents_withNode]
    split_ifs at hm with hj
    · -- The link of the new node is dead.
      obtain rfl := Option.some_inj.1 hm
      obtain ⟨c, rfl, hDead, _, hne⟩ := hHolder h hLink
      rw [isLive, node?_withNode, if_neg hne, hDead] at hLive
      cases hLive
    · split_ifs with hh
      · exact (hList j).2 ⟨m, hm, hh ▸ hLink⟩
      · refine hg.listed j m h hm hLink ?_
        cases h with
        | tile p => exact hLive
        | item c =>
          -- Only the list of the new node is another, and that case is done.
          have hc : c ≠ id := fun hc => hh (by rw [hc])
          rwa [isLive, node?_withNode, if_neg hc] at hLive
  case nodup =>
    intro h
    rw [contents_withNode]
    split_ifs
    · exact hNodup
    · exact hg.nodup h
  case holds =>
    intro j m hm hNonempty
    rw [node?_withNode] at hm
    split_ifs at hm with hj
    · obtain rfl := Option.some_inj.1 hm
      exact hHolds hNonempty
    · exact hg.holds j m hm hNonempty
  case numbered =>
    intro j m hm
    rw [node?_withNode] at hm
    split_ifs at hm with hj
    · rw [hj]
      exact hNumber
    · exact hg.numbered j m hm
  case linkNumbered =>
    intro j m c hm hLink
    rw [node?_withNode] at hm
    split_ifs at hm with hj
    · obtain rfl := Option.some_inj.1 hm
      obtain ⟨c', hc', _, hLt, _⟩ := hHolder _ hLink
      cases hc'
      exact hLt
    · exact hg.linkNumbered j m c hm hLink
  case linkTiled =>
    intro j m p hm hLink
    rw [node?_withNode] at hm
    split_ifs at hm with hj
    · obtain rfl := Option.some_inj.1 hm
      obtain ⟨c, hc, _⟩ := hHolder _ hLink
      cases hc
    · exact hg.linkTiled j m p hm hLink
  case ranked =>
    -- What lies in the new node is there already, so it may rank above it.
    refine hg.exists_rank_withNode hNew ?_
    intro j hj
    obtain ⟨m, hm, _⟩ := (hList j).1 hj
    rw [hm]
    rfl

/-- Passing over a number. -/
theorem Consistent.skip (hg : g.Consistent) :
    ({ g with next := g.next + 1 } : Graph).Consistent where
  linked := hg.linked
  listed := hg.listed
  nodup := hg.nodup
  holds := hg.holds
  numbered id n hn := Nat.lt_succ_of_lt (hg.numbered id n hn)
  linkNumbered id n c hn hh := Nat.lt_succ_of_lt (hg.linkNumbered id n c hn hh)
  linkTiled := hg.linkTiled
  ranked := hg.ranked

/-! ## §2. What planting has done. -/

/-- `g'` is `g` with new nodes that show trees, whose roots are linked to a holder. -/
structure Planted (g g' : Graph) (holder : Option Holder) (ids : List ItemId)
    (ts : List ItemTree) : Prop where
  /-- The graph is consistent. -/
  consistent : g'.Consistent
  /-- The tiles are as before. -/
  tiles : g'.tiles = g.tiles
  /-- Numbers were given out. -/
  next_le : g.next ≤ g'.next
  /-- The old nodes are as before. -/
  old : ∀ j, j < g.next → g'.node? j = g.node? j
  /-- The roots are new and linked to the holder. -/
  root : ∀ id ∈ ids, g.next ≤ id ∧ ∃ n, g'.node? id = some n ∧ n.holder = holder
  /-- The other new nodes are linked to new numbers. -/
  rest : ∀ j n, g.next ≤ j → g'.node? j = some n → j ∉ ids →
    ∃ c, n.holder = some (.item c) ∧ g.next ≤ c
  /-- The roots differ. -/
  nodup : ids.Nodup
  /-- The roots show the trees. -/
  shows : g'.ShowsAll ids ts
  /-- The new nodes have items of the trees. -/
  items : ∀ P : Item → Prop, ItemTree.EveryOf (fun i _ => P i) ts →
    ∀ j n, g.next ≤ j → g'.node? j = some n → P n.item

/-- Planting leaves the items that were there. -/
theorem Planted.extends {holder : Option Holder} {ids : List ItemId} {ts : List ItemTree}
    (h : Planted g g' holder ids ts) (hg : g.Consistent) :
    ∀ j n, g.node? j = some n → g'.node? j = some n := by
  intro j n hj
  rw [h.old j (hg.numbered j n hj), hj]

/-- Nothing is planted where there are no trees. -/
theorem Planted.nil (hg : g.Consistent) (holder : Option Holder) : Planted g g holder [] [] where
  consistent := hg
  tiles := rfl
  next_le := Nat.le_refl _
  old _ _ := rfl
  root _ h := absurd h List.not_mem_nil
  rest j n hj hn _ := absurd (hg.numbered j n hn) (Nat.not_lt.2 hj)
  nodup := List.nodup_nil
  shows := trivial
  items _ _ j n hj hn := absurd (hg.numbered j n hn) (Nat.not_lt.2 hj)

/-- One tree after another. -/
theorem Planted.cons {holder : Option Holder} {id : ItemId} {ids : List ItemId} {t : ItemTree}
    {ts : List ItemTree} (h : Planted g g' holder [id] [t])
    (h' : Planted g' g'' holder ids ts) : Planted g g'' holder (id :: ids) (t :: ts) := by
  obtain ⟨hNew, n, hn, hLink⟩ := h.root id List.mem_cons_self
  have hFirst := h'.extends h.consistent
  -- The numbers of the first tree lie below `g'.next`, and those of the others from there on.
  constructor
  case consistent => exact h'.consistent
  case tiles => rw [h'.tiles, h.tiles]
  case next_le => exact Nat.le_trans h.next_le h'.next_le
  case old =>
    intro j hj
    rw [h'.old j (Nat.lt_of_lt_of_le hj h.next_le), h.old j hj]
  case root =>
    intro j hj
    rcases List.mem_cons.1 hj with rfl | hj
    · exact ⟨hNew, n, hFirst _ n hn, hLink⟩
    · obtain ⟨hLe, hNode⟩ := h'.root j hj
      exact ⟨Nat.le_trans h.next_le hLe, hNode⟩
  case rest =>
    intro j m hj hm hNot
    rw [List.mem_cons, not_or] at hNot
    -- Below that number it is of the first tree, as the second one left it.
    by_cases hBefore : j < g'.next
    · rw [h'.old j hBefore] at hm
      exact h.rest j m hj hm (by simpa using hNot.1)
    · obtain ⟨c, hc, hLe⟩ := h'.rest j m (Nat.not_lt.1 hBefore) hm hNot.2
      exact ⟨c, hc, Nat.le_trans h.next_le hLe⟩
  case nodup =>
    refine List.nodup_cons.2 ⟨?_, h'.nodup⟩
    intro hMem
    have hLt := h.consistent.numbered id n hn
    -- The first root would have a number of its own graph and a new one at once.
    exact Nat.not_lt.2 (h'.root id hMem).1 hLt
  case shows => exact ⟨Shows.of_extends hFirst h.shows.1, h'.shows⟩
  case items =>
    intro P hP j m hj hm
    by_cases hBefore : j < g'.next
    · rw [h'.old j hBefore] at hm
      exact h.items P ⟨hP.1, trivial⟩ j m hj hm
    · exact h'.items P hP.2 j m (Nat.not_lt.1 hBefore) hm

/-- What is linked to the number before those given out is what has been planted for it. -/
theorem Planted.mem_iff (hg : g.Consistent) {ids : List ItemId} {ts : List ItemTree}
    (h : Planted { g with next := g.next + 1 } g' (some (.item g.next)) ids ts) {j : ItemId} :
    j ∈ ids ↔ ∃ m, g'.node? j = some m ∧ m.holder = some (.item g.next) := by
  constructor
  · intro hj
    exact (h.root j hj).2
  · rintro ⟨m, hm, hLink⟩
    by_contra hj
    by_cases hBefore : j ≤ g.next
    · -- No old link names the new number.
      have hm' : g.node? j = some m := (h.old j (Nat.lt_succ_of_le hBefore)).symm.trans hm
      exact absurd (hg.linkNumbered j m _ hm' hLink) (Nat.lt_irrefl _)
    · obtain ⟨c, hc, hLe⟩ := h.rest j m (Nat.not_le.1 hBefore) hm hj
      rw [hLink] at hc
      obtain rfl := Holder.item.inj (Option.some_inj.1 hc)
      exact absurd hLe (Nat.not_succ_le_self _)

/-- An item whose contents have been planted. -/
theorem Planted.node (hg : g.Consistent) {item : Item} {contents : List ItemTree}
    {ids : List ItemId} {holder : Option Holder}
    (h : Planted { g with next := g.next + 1 } g' (some (.item g.next)) ids contents)
    (hHollow : ItemTree.Hollow item contents)
    (hHolder : ∀ h, holder = some h → ∃ c, h = .item c ∧ g.node? c = none ∧ c < g.next) :
    Planted g (g'.withNode g.next { item, holder, contents := ids }) holder [g.next]
      [.node item contents] := by
  have hFresh : g.node? g.next = none := hg.node?_eq_none (Nat.le_refl _)
  have hNext : g.next < g'.next := h.next_le
  have hOld : ∀ j, j ≤ g.next → g'.node? j = g.node? j :=
    fun j hj => h.old j (Nat.lt_succ_of_le hj)
  have hNew : g'.node? g.next = none := by rw [hOld g.next (Nat.le_refl _), hFresh]
  have hExtends : ∀ j n, g'.node? j = some n →
      (g'.withNode g.next { item, holder, contents := ids }).node? j = some n := by
    intro j n hj
    rw [node?_withNode, if_neg, hj]
    rintro rfl
    rw [hNew] at hj
    cases hj
  constructor
  case consistent =>
    refine h.consistent.withNode hNew hNext h.nodup (fun j => h.mem_iff hg) ?_ ?_
    · intro hNonempty
      refine hHollow ?_
      intro hNil
      have hLength := h.shows.length_eq
      rw [hNil] at hLength
      exact hNonempty (List.length_eq_zero_iff.1 hLength)
    · intro holder' hEq
      obtain ⟨c, hc, hNone, hLt⟩ := hHolder holder' hEq
      exact ⟨c, hc, by rw [hOld c (Nat.le_of_lt hLt), hNone], Nat.lt_trans hLt hNext,
        Nat.ne_of_lt hLt⟩
  case tiles => exact h.tiles
  case next_le => exact Nat.le_of_lt hNext
  case old =>
    intro j hj
    rw [node?_withNode, if_neg (Nat.ne_of_lt hj), hOld j (Nat.le_of_lt hj)]
  case root =>
    intro j hj
    obtain rfl := List.mem_singleton.1 hj
    exact ⟨Nat.le_refl _, _, by rw [node?_withNode, if_pos rfl], rfl⟩
  case rest =>
    intro j m hj hm hNot
    have hne : j ≠ g.next := by simpa using hNot
    rw [node?_withNode, if_neg hne] at hm
    have hAfter : g.next + 1 ≤ j := Nat.lt_of_le_of_ne hj (Ne.symm hne)
    -- The roots of the contents are linked to the item; what is below them is as it was.
    by_cases hMem : j ∈ ids
    · obtain ⟨_, m', hm', hLink⟩ := h.root j hMem
      obtain rfl := Option.some_inj.1 (hm.symm.trans hm')
      exact ⟨g.next, hLink, Nat.le_refl _⟩
    · obtain ⟨c, hc, hLe⟩ := h.rest j m hAfter hm hMem
      exact ⟨c, hc, Nat.le_of_succ_le hLe⟩
  case nodup => exact List.nodup_singleton _
  case shows =>
    refine ⟨⟨_, by rw [node?_withNode, if_pos rfl], rfl, ?_⟩, trivial⟩
    exact ShowsAll.of_extends hExtends h.shows
  case items =>
    intro P hP j m hj hm
    rw [node?_withNode] at hm
    split_ifs at hm with hne
    · obtain rfl := Option.some_inj.1 hm
      exact hP.1.1
    · exact h.items P hP.1.2 j m (Nat.lt_of_le_of_ne hj (Ne.symm hne)) hm

mutual

/-- A tree is planted, by induction over it: its contents first, then its root above them. -/
theorem planted_plant : ∀ (t : ItemTree) (g : Graph) (holder : Option Holder), g.Consistent →
    t.Every ItemTree.Hollow →
    (∀ h, holder = some h → ∃ c, h = .item c ∧ g.node? c = none ∧ c < g.next) →
      Planted g (g.plant holder t).2 holder [(g.plant holder t).1] [t]
  | .node item contents, g, holder, hg, hHollow, hHolder => by
    have hFresh : g.node? g.next = none := hg.node?_eq_none (Nat.le_refl _)
    have hAll := planted_plantAll contents { g with next := g.next + 1 } g.next hg.skip hHollow.2
      hFresh (Nat.lt_succ_self _)
    have hNode := Planted.node hg hAll hHollow.1 hHolder
    rw [plant]
    exact hNode

/-- Trees are planted one after the other. -/
theorem planted_plantAll : ∀ (ts : List ItemTree) (g : Graph) (container : ItemId),
    g.Consistent → ItemTree.EveryOf ItemTree.Hollow ts → g.node? container = none →
      container < g.next → Planted g (g.plantAll container ts).2 (some (.item container))
        (g.plantAll container ts).1 ts
  | [], g, container, hg, _, _, _ => Planted.nil hg _
  | t :: ts, g, container, hg, hHollow, hNone, hLt => by
    have hHead := planted_plant t g (some (.item container)) hg hHollow.1 (by
      intro h hEq
      exact ⟨container, (Option.some_inj.1 hEq).symm, hNone, hLt⟩)
    have hStill : (g.plant (some (.item container)) t).2.node? container = none := by
      rw [hHead.old container hLt, hNone]
    have hTail := planted_plantAll ts _ container hHead.consistent hHollow.2 hStill
      (Nat.lt_of_lt_of_le hLt hHead.next_le)
    rw [plantAll]
    exact hHead.cons hTail

end

/-- **Making a tree that lies nowhere.** -/
theorem planted_create (hg : g.Consistent) {t : ItemTree} (h : t.Every ItemTree.Hollow) :
    Planted g (g.create t).2 none [(g.create t).1] [t] :=
  planted_plant t g none hg h fun _ hEq => by cases hEq

/-- A new tree leaves the links in order. -/
theorem Consistent.create (hg : g.Consistent) {t : ItemTree} (h : t.Every ItemTree.Hollow) :
    (g.create t).2.Consistent :=
  (planted_create hg h).consistent

/-! ## §3. Copies. -/

/-- A copy is a container if what is copied is. -/
theorem Variant.isContainer_copy (v : Variant) : v.copy.isContainer = v.isContainer := by
  cases v <;> rfl

mutual

/-- The copy of a tree holds contents only where its type does. -/
theorem hollow_copy : ∀ t : ItemTree, t.Every ItemTree.Hollow → t.copy.Every ItemTree.Hollow
  | .node item contents, h => by
    rw [ItemTree.copy]
    refine ⟨?_, hollow_copies contents h.2⟩
    intro hNonempty
    show item.variant.copy.isContainer = true
    rw [Variant.isContainer_copy]
    refine h.1 ?_
    rintro rfl
    exact hNonempty rfl

/-- The copies of trees hold contents only where their types do. -/
theorem hollow_copies : ∀ ts : List ItemTree, ItemTree.EveryOf ItemTree.Hollow ts →
    ItemTree.EveryOf ItemTree.Hollow (ItemTree.copies ts)
  | [], _ => trivial
  | t :: ts, h => ⟨hollow_copy t h.1, hollow_copies ts h.2⟩

end

/-- **Making a copy of an item**, which there is one of whenever the item exists. -/
theorem planted_clone (hg : g.Consistent) {id : ItemId} (hid : (g.node? id).isSome) :
    ∃ t copy g', g.Shows id t ∧ g.clone id = some (copy, g')
      ∧ Planted g g' none [copy] [t.copy] := by
  obtain ⟨t, ht⟩ := hg.tree?_isSome hid
  have hShows := hg.tree?_eq_some_iff.1 ht
  refine ⟨t, (g.create t.copy).1, (g.create t.copy).2, hShows, ?_, ?_⟩
  · rw [clone, ht]
    rfl
  · exact planted_create hg (hollow_copy t (hg.hollow_of_shows t id hShows))

/-- A clone leaves the links in order. -/
theorem Consistent.clone (hg : g.Consistent) {id copy : ItemId}
    (h : g.clone id = some (copy, g')) : g'.Consistent := by
  obtain ⟨t, ht, hEq⟩ := Option.map_eq_some_iff.1 h
  have hShows := hg.tree?_eq_some_iff.1 ht
  rw [show g' = (g.create t.copy).2 from (congrArg Prod.snd hEq).symm]
  exact hg.create (hollow_copy t (hg.hollow_of_shows t id hShows))

end Graph

end Homestead
