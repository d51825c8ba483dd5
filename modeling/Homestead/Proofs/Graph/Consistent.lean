/-
  Homestead.Proofs.Graph.Consistent
  ─────────────────────────────────
  **LINKS AND LISTS SAY THE SAME.**

  In a consistent graph what stands in a list is linked to the holder of
  the list, what is linked to a holder that exists stands in its list, and
  no item lies in itself.  For the last one a graph carries a rank: what
  lies in a container has a lesser rank than the container.

  Main results:
    * `Consistent` — the invariant;
    * `Consistent.mem_contents_iff` — links and lists agree;
    * `Consistent.not_lies_self` — nothing lies in itself, however deep;
    * `Consistent.exists_depth`, `Consistent.exists_height` — ranks that
      stay below the number of nodes, outwards and inwards.
-/
import Homestead.Proofs.Graph.Lookup
import Mathlib.Data.Finset.Card
import Mathlib.Data.Finset.Lattice.Fold
import Mathlib.Logic.Relation

namespace Homestead

namespace Graph

/-! ## §1. The invariant. -/

/-- `inner` lies in the container `outer`. -/
def Lies (g : Graph) (inner outer : ItemId) : Prop :=
  inner ∈ g.contents (.item outer)

instance (g : Graph) (inner outer : ItemId) : Decidable (g.Lies inner outer) :=
  inferInstanceAs (Decidable (inner ∈ g.contents (.item outer)))

/-- Links and lists agree. -/
structure Consistent (g : Graph) : Prop where
  /-- What stands in a list exists and is linked to the holder. -/
  linked : ∀ h id, id ∈ g.contents h → ∃ n, g.node? id = some n ∧ n.holder = some h
  /-- What is linked to a holder that exists stands in its list. -/
  listed : ∀ id n h, g.node? id = some n → n.holder = some h → g.isLive h → id ∈ g.contents h
  /-- Nothing stands twice in a list. -/
  nodup : ∀ h, (g.contents h).Nodup
  /-- Only containers hold items. -/
  holds : ∀ id n, g.node? id = some n → n.contents ≠ [] → n.item.isContainer
  /-- Nodes have numbers that were given out. -/
  numbered : ∀ id n, g.node? id = some n → id < g.next
  /-- Links to items have numbers that were given out. -/
  linkNumbered : ∀ id n c, g.node? id = some n → n.holder = some (.item c) → c < g.next
  /-- Links to tiles name tiles that exist. -/
  linkTiled : ∀ id n p, g.node? id = some n → n.holder = some (.tile p) → (g.tile? p).isSome
  /-- What lies in a container has a lesser rank. -/
  ranked : ∃ rank : ItemId → Nat, ∀ inner outer, g.Lies inner outer → rank inner < rank outer

variable {g : Graph}

/-- The parent of an item is its link, if that is to a holder that is there. -/
theorem parent?_eq_some {id : ItemId} {h : Holder} :
    g.parent? id = some h ↔ ∃ n, g.node? id = some n ∧ n.holder = some h ∧ g.isLive h = true := by
  rw [parent?, Option.filter_eq_some_iff, Option.bind_eq_some_iff]
  constructor
  · rintro ⟨⟨n, hn, hh⟩, hLive⟩
    exact ⟨n, hn, hh, hLive⟩
  · rintro ⟨n, hn, hh, hLive⟩
    exact ⟨⟨n, hn, hh⟩, hLive⟩

/-- **An item stands in the list of a holder when the holder is its own**, and only then. -/
theorem Consistent.mem_contents_iff (hg : g.Consistent) {id : ItemId} {h : Holder} :
    id ∈ g.contents h ↔ g.parent? id = some h := by
  rw [parent?_eq_some]
  constructor
  · intro hMem
    obtain ⟨n, hn, hh⟩ := hg.linked h id hMem
    exact ⟨n, hn, hh, g.isLive_of_mem_contents hMem⟩
  · rintro ⟨n, hn, hh, hLive⟩
    exact hg.listed id n h hn hh hLive

/-- An item stands in one list at most. -/
theorem Consistent.holder_unique (hg : g.Consistent) {id : ItemId} {h h' : Holder}
    (hMem : id ∈ g.contents h) (hMem' : id ∈ g.contents h') : h = h' := by
  rw [hg.mem_contents_iff] at hMem hMem'
  exact Option.some_inj.1 (hMem.symm.trans hMem')

/-- A number that is still to be given out is that of no item. -/
theorem Consistent.node?_eq_none (hg : g.Consistent) {id : ItemId} (h : g.next ≤ id) :
    g.node? id = none := by
  cases hn : g.node? id with
  | none => rfl
  | some n => exact absurd (hg.numbered id n hn) (Nat.not_lt.2 h)

/-- The parent of an item is the item that it lies in. -/
theorem Consistent.parent?_item (hg : g.Consistent) {id c : ItemId} :
    g.parent? id = some (.item c) ↔ g.Lies id c :=
  hg.mem_contents_iff.symm

/-- **Nothing lies in itself**, however deep. -/
theorem Consistent.not_lies_self (hg : g.Consistent) (id : ItemId) :
    ¬ Relation.TransGen g.Lies id id := by
  obtain ⟨rank, hRank⟩ := hg.ranked
  have hLess : ∀ inner outer, Relation.TransGen g.Lies inner outer → rank inner < rank outer := by
    intro inner outer h
    induction h with
    | single h => exact hRank _ _ h
    | tail _ h ih => exact Nat.lt_trans ih (hRank _ _ h)
  intro h
  exact Nat.lt_irrefl _ (hLess id id h)

/-! ## §2. Bounded ranks. -/

/-- The items that exist. -/
def ids (g : Graph) : Finset ItemId :=
  g.nodes.keys.toFinset

/-- The numbers of a graph are those under which items are found. -/
theorem mem_ids {id : ItemId} : id ∈ g.ids ↔ (g.node? id).isSome := by
  rw [ids, List.mem_toFinset, Std.TreeMap.mem_keys, Std.TreeMap.mem_iff_isSome_getElem?]
  rfl

/-- There are as many numbers as items. -/
theorem card_ids (g : Graph) : g.ids.card = g.size := by
  rw [ids, List.toFinset_card_of_nodup Std.TreeMap.nodup_keys, Std.TreeMap.length_keys]
  rfl

/-- How many items come before one in an order given by a rank. -/
def countBelow (g : Graph) (rank : ItemId → Nat) (id : ItemId) : Nat :=
  (g.ids.filter fun j => rank j < rank id).card

/-- More items rank below what ranks higher. -/
theorem countBelow_lt (rank : ItemId → Nat) {inner outer : ItemId} (hIn : inner ∈ g.ids)
    (h : rank inner < rank outer) : g.countBelow rank inner < g.countBelow rank outer := by
  refine Finset.card_lt_card ⟨?_, ?_⟩
  · intro j hj
    rw [Finset.mem_filter] at hj ⊢
    exact ⟨hj.1, Nat.lt_trans hj.2 h⟩
  · intro hSub
    have hMem := hSub (Finset.mem_filter.2 ⟨hIn, h⟩)
    exact Nat.lt_irrefl _ (Finset.mem_filter.1 hMem).2

/-- Not all items rank below one of them. -/
theorem countBelow_lt_size (rank : ItemId → Nat) {id : ItemId} (hIn : id ∈ g.ids) :
    g.countBelow rank id < g.size := by
  rw [← card_ids]
  refine Finset.card_lt_card ⟨Finset.filter_subset _ _, ?_⟩
  intro hSub
  have hMem := hSub hIn
  exact Nat.lt_irrefl _ (Finset.mem_filter.1 hMem).2

/-- What lies in something is there, and so is what it lies in. -/
theorem Consistent.mem_ids_of_lies (hg : g.Consistent) {inner outer : ItemId}
    (h : g.Lies inner outer) : inner ∈ g.ids ∧ outer ∈ g.ids := by
  obtain ⟨n, hn, _⟩ := hg.linked _ _ h
  rw [mem_ids, mem_ids, hn]
  exact ⟨rfl, g.isLive_of_mem_contents h⟩

/-- A rank that grows outwards and stays below the number of nodes. -/
theorem Consistent.exists_height (hg : g.Consistent) :
    ∃ height : ItemId → Nat, (∀ inner outer, g.Lies inner outer → height inner < height outer)
      ∧ ∀ id, (g.node? id).isSome → height id < g.size := by
  obtain ⟨rank, hRank⟩ := hg.ranked
  refine ⟨g.countBelow rank, ?_, ?_⟩
  · intro inner outer h
    exact countBelow_lt rank (hg.mem_ids_of_lies h).1 (hRank _ _ h)
  · intro id hid
    exact countBelow_lt_size rank (mem_ids.2 hid)

/-- A rank that grows inwards and stays below the number of nodes. -/
theorem Consistent.exists_depth (hg : g.Consistent) :
    ∃ depth : ItemId → Nat, (∀ inner outer, g.Lies inner outer → depth outer < depth inner)
      ∧ ∀ id, (g.node? id).isSome → depth id < g.size := by
  obtain ⟨rank, hRank⟩ := hg.ranked
  -- A rank that grows outwards is bounded on the nodes; turned around it grows inwards.
  have hBound : ∃ top, ∀ id ∈ g.ids, rank id ≤ top := by
    refine ⟨g.ids.sup rank, ?_⟩
    intro id hid
    exact Finset.le_sup hid
  obtain ⟨top, hTop⟩ := hBound
  refine ⟨g.countBelow (fun id => top - rank id), ?_, ?_⟩
  · intro inner outer h
    have hIn := hg.mem_ids_of_lies h
    refine countBelow_lt _ hIn.2 ?_
    have hLess := hRank _ _ h
    have hOuter := hTop outer hIn.2
    show top - rank outer < top - rank inner
    omega
  · intro id hid
    exact countBelow_lt_size _ (mem_ids.2 hid)

/-! ## §3. Walks outwards. -/

/-- The walk along links comes to every container that an item lies in. -/
theorem Consistent.mem_holdersWithin (hg : g.Consistent) {depth : ItemId → Nat}
    (hDepth : ∀ inner outer, g.Lies inner outer → depth outer < depth inner) (steps : Nat)
    {id c : ItemId} (hSteps : depth id ≤ steps) (h : Relation.TransGen g.Lies id c) :
    Holder.item c ∈ g.holdersWithin steps id := by
  induction steps generalizing id with
  | zero =>
    -- An item that lies in a container is deeper than it, so no such item has depth 0.
    obtain ⟨outer, hLies, _⟩ := Relation.TransGen.head'_iff.1 h
    have hLess := hDepth id outer hLies
    omega
  | succ steps ih =>
    obtain ⟨outer, hLies, hRest⟩ := Relation.TransGen.head'_iff.1 h
    rw [holdersWithin, hg.parent?_item.2 hLies]
    show Holder.item c ∈ Holder.item outer :: g.holdersWithin steps outer
    -- The container is the one that the item lies in directly, or is found further out.
    rcases Relation.reflTransGen_iff_eq_or_transGen.1 hRest with rfl | hTrans
    · exact List.mem_cons_self
    · have hLess := hDepth id outer hLies
      exact List.mem_cons_of_mem _ (ih (by omega) hTrans)

/-- **A container that an item lies in, however deep, or the item itself, encloses it.** -/
theorem Consistent.encloses_of_lies (hg : g.Consistent) {id c : ItemId}
    (h : Relation.ReflTransGen g.Lies id c) : g.encloses c id = true := by
  rw [encloses, Bool.or_eq_true, beq_iff_eq, List.contains_iff_mem]
  rcases Relation.reflTransGen_iff_eq_or_transGen.1 h with rfl | hTrans
  · exact .inl rfl
  · obtain ⟨depth, hDepth, hSize⟩ := hg.exists_depth
    obtain ⟨outer, hLies, _⟩ := Relation.TransGen.head'_iff.1 hTrans
    have hNode := mem_ids.1 (hg.mem_ids_of_lies hLies).1
    exact .inr (hg.mem_holdersWithin hDepth g.size (Nat.le_of_lt (hSize id hNode)) hTrans)

end Graph

end Homestead
