/-
  Homestead.Proofs.Graph.Steps
  ────────────────────────────
  **EVERY OPERATION KEEPS A GRAPH CONSISTENT.**

  Operations change one list and one link together, or neither.  Putting an
  item into a container raises the container and all that it lies in above
  the item, which the check against cycles allows.  Taking things out needs
  no more than that links and lists agree afterwards.

  Main results:
    * `Consistent.of_loosened` — taking things out;
    * `Consistent.insert`, `Consistent.remove`, `Consistent.detach`,
      `Consistent.move` — items come and go;
    * `Consistent.retype` — items change what they are.
-/
import Homestead.Proofs.Graph.Attempts
import Homestead.Proofs.Graph.Consistent
import Homestead.Proofs.Record.Update

namespace Homestead

namespace Graph

/-! ## §1. Changes that leave links and lists alone. -/

/-- Two graphs with the same tiles, numbers, links and lists. -/
structure SameLinks (g g' : Graph) : Prop where
  /-- The lists of tiles are the same. -/
  tile : ∀ p, (g'.tile? p).map (·.contents) = (g.tile? p).map (·.contents)
  /-- Links and lists of items are the same. -/
  node : ∀ id, (g'.node? id).map (fun n => (n.holder, n.contents))
    = (g.node? id).map (fun n => (n.holder, n.contents))
  /-- The next number is the same. -/
  next : g'.next = g.next

namespace SameLinks

variable {g g' : Graph}

/-- Graphs with the same links hold the same items everywhere. -/
theorem contents_eq (h : SameLinks g g') (holder : Holder) :
    g'.contents holder = g.contents holder := by
  cases holder with
  | tile p => rw [contents, contents, h.tile]
  | item id =>
    have hNode := congrArg (Option.map Prod.snd) (h.node id)
    rw [Option.map_map, Option.map_map] at hNode
    exact congrArg (·.getD []) hNode

/-- Graphs with the same links have the same items. -/
theorem isSome_node? (h : SameLinks g g') (id : ItemId) :
    (g'.node? id).isSome = (g.node? id).isSome := by
  have hNode := congrArg Option.isSome (h.node id)
  rwa [Option.isSome_map, Option.isSome_map] at hNode

/-- Graphs with the same links have the same tiles. -/
theorem isSome_tile? (h : SameLinks g g') (p : Position) :
    (g'.tile? p).isSome = (g.tile? p).isSome := by
  have hTile := congrArg Option.isSome (h.tile p)
  rwa [Option.isSome_map, Option.isSome_map] at hTile

/-- Graphs with the same links have the same holders. -/
theorem isLive_eq (h : SameLinks g g') (holder : Holder) : g'.isLive holder = g.isLive holder := by
  cases holder with
  | tile p => exact h.isSome_tile? p
  | item id => exact h.isSome_node? id

/-- An item of the later graph is in the earlier one, with the same holder and contents. -/
theorem node_eq (h : SameLinks g g') {id : ItemId} {n' : Node} (hn' : g'.node? id = some n') :
    ∃ n, g.node? id = some n ∧ n.holder = n'.holder ∧ n.contents = n'.contents := by
  have hNode := h.node id
  rw [hn'] at hNode
  obtain ⟨n, hn, hEq⟩ := Option.map_eq_some_iff.1 hNode.symm
  exact ⟨n, hn, congrArg Prod.fst hEq, congrArg Prod.snd hEq⟩

/-- Having the same links goes both ways. -/
theorem symm (h : SameLinks g g') : SameLinks g' g where
  tile p := (h.tile p).symm
  node id := (h.node id).symm
  next := h.next.symm

end SameLinks

variable {g g' : Graph}

/-- Links and lists are all that is to be kept, apart from what holds items. -/
theorem Consistent.of_sameLinks (hg : g.Consistent) (h : SameLinks g g')
    (hHolds : ∀ id n, g'.node? id = some n → n.contents ≠ [] → n.item.isContainer) :
    g'.Consistent where
  -- Every condition is read off the old graph: the lists, the links and the tiles are the same.
  linked holder id hMem := by
    rw [h.contents_eq] at hMem
    obtain ⟨n, hn, hh⟩ := hg.linked holder id hMem
    obtain ⟨n', hn', hHolder, _⟩ := h.symm.node_eq hn
    exact ⟨n', hn', hHolder.trans hh⟩
  listed id n' holder hn' hh hLive := by
    obtain ⟨n, hn, hHolder, _⟩ := h.node_eq hn'
    rw [h.isLive_eq] at hLive
    rw [h.contents_eq]
    exact hg.listed id n holder hn (hHolder.trans hh) hLive
  nodup holder := by
    rw [h.contents_eq]
    exact hg.nodup holder
  holds := hHolds
  numbered id n' hn' := by
    obtain ⟨n, hn, _⟩ := h.node_eq hn'
    rw [h.next]
    exact hg.numbered id n hn
  linkNumbered id n' c hn' hh := by
    obtain ⟨n, hn, hHolder, _⟩ := h.node_eq hn'
    rw [h.next]
    exact hg.linkNumbered id n c hn (hHolder.trans hh)
  linkTiled id n' p hn' hh := by
    obtain ⟨n, hn, hHolder, _⟩ := h.node_eq hn'
    rw [h.isSome_tile?]
    exact hg.linkTiled id n p hn (hHolder.trans hh)
  ranked := by
    obtain ⟨rank, hRank⟩ := hg.ranked
    refine ⟨rank, ?_⟩
    intro inner outer hLies
    rw [Lies, h.contents_eq] at hLies
    exact hRank inner outer hLies

/-- A change of an item's own data leaves every link. -/
theorem sameLinks_update (g : Graph) (id : ItemId) (f : Item → Item) :
    SameLinks g (g.update id f) where
  tile p := by rw [tile?_eq_of_tiles (tiles_update g id f)]
  node j := by
    rw [node?_update]
    split_ifs
    · rw [Option.map_map]
      rfl
    · rfl
  next := next_update g id f

/-- Changing an item where it lies, if it stays a container as long as it holds something. -/
theorem Consistent.update (hg : g.Consistent) (id : ItemId) (f : Item → Item)
    (hf : ∀ n, g.node? id = some n → n.item.isContainer → (f n.item).isContainer) :
    (g.update id f).Consistent := by
  refine hg.of_sameLinks (sameLinks_update g id f) ?_
  intro j n' hn' hContents
  rw [node?_update] at hn'
  split_ifs at hn' with hj
  · obtain ⟨n, hn, rfl⟩ := Option.map_eq_some_iff.1 hn'
    exact hf n (hj ▸ hn) (hg.holds j n hn hContents)
  · exact hg.holds j n' hn' hContents

/-- Giving a tile to a house leaves every link. -/
theorem sameLinks_setTileHouse (g : Graph) (p : Position) (house : Option UInt32) :
    SameLinks g (g.setTileHouse p house) where
  tile q := by
    unfold setTileHouse
    split
    -- Only the house of the one tile is written, not its list.
    next t ht =>
      show ((g.tiles.insert p { t with house })[q]?).map _ = _
      rw [tile?_insert]
      split_ifs with hq
      · rw [hq, ht]
        rfl
      · rfl
    next => rfl
  node id := by
    unfold setTileHouse
    split <;> rfl
  next := by
    unfold setTileHouse
    split <;> rfl

/-- The links of a graph stay in order when a tile is given to a house. -/
theorem Consistent.setTileHouse (hg : g.Consistent) (p : Position) (house : Option UInt32) :
    (g.setTileHouse p house).Consistent := by
  refine hg.of_sameLinks (sameLinks_setTileHouse g p house) ?_
  intro id n hn
  have hSame : (g.setTileHouse p house).node? id = g.node? id := by
    unfold Graph.setTileHouse
    split <;> rfl
  exact hg.holds id n (hSame ▸ hn)

/-- `g'` is `g` with less in some lists: items have the links that they had or none, and what holds
something still is as it was. -/
structure Loosened (g g' : Graph) : Prop where
  /-- Lists have nothing new in them, and nothing in another place. -/
  lists : ∀ h, (g'.contents h).Sublist (g.contents h)
  /-- Nodes have the links that they had or none, and their items if they hold something. -/
  node : ∀ id n', g'.node? id = some n' → ∃ n, g.node? id = some n
    ∧ (∀ h, n'.holder = some h → n.holder = some h) ∧ (n'.contents ≠ [] → n'.item = n.item)
  /-- The tiles are there still. -/
  tiles : ∀ p, (g.tile? p).isSome → (g'.tile? p).isSome
  /-- Numbers may have been given out. -/
  next_le : g.next ≤ g'.next

/-- **Taking things out keeps a graph consistent** as long as links and lists agree. -/
theorem Consistent.of_loosened (hg : g.Consistent) (h : Loosened g g')
    (hLinked : ∀ holder id, id ∈ g'.contents holder →
      ∃ n, g'.node? id = some n ∧ n.holder = some holder)
    (hListed : ∀ id n holder, g'.node? id = some n → n.holder = some holder → g'.isLive holder →
      id ∈ g'.contents holder) : g'.Consistent where
  linked := hLinked
  listed := hListed
  -- What is left of a list is a part of it, in its order.
  nodup holder := (h.lists holder).nodup (hg.nodup holder)
  holds id n' hn' hNonempty := by
    obtain ⟨n, hn, _, hItem⟩ := h.node id n' hn'
    rw [hItem hNonempty]
    refine hg.holds id n hn ?_
    intro hNil
    have hList := h.lists (.item id)
    rw [g'.contents_item hn', g.contents_item hn, hNil] at hList
    exact hNonempty (List.sublist_nil.1 hList)
  numbered id n' hn' := by
    obtain ⟨n, hn, _⟩ := h.node id n' hn'
    exact Nat.lt_of_lt_of_le (hg.numbered id n hn) h.next_le
  linkNumbered id n' c hn' hLink := by
    obtain ⟨n, hn, hLinks, _⟩ := h.node id n' hn'
    exact Nat.lt_of_lt_of_le (hg.linkNumbered id n c hn (hLinks _ hLink)) h.next_le
  linkTiled id n' p hn' hLink := by
    obtain ⟨n, hn, hLinks, _⟩ := h.node id n' hn'
    exact h.tiles p (hg.linkTiled id n p hn (hLinks _ hLink))
  -- Nothing has been put anywhere, so what ranked the items before ranks them still.
  ranked := by
    obtain ⟨rank, hRank⟩ := hg.ranked
    refine ⟨rank, ?_⟩
    intro inner outer hLies
    exact hRank inner outer ((h.lists (.item outer)).subset hLies)

/-! ## §2. Changing one list and one link. -/

/-- The graph with another list for a holder and another link for an item. -/
def relist (g : Graph) (holder : Holder) (ids : List ItemId) (id : ItemId)
    (link : Option Holder) : Graph :=
  (g.setContents holder ids).setHolder id link

/-- A list that is written anew is the list of that holder alone. -/
theorem contents_relist {holder : Holder} (hLive : g.isLive holder) (ids : List ItemId)
    (id : ItemId) (link : Option Holder) (h : Holder) :
    (g.relist holder ids id link).contents h = if h = holder then ids else g.contents h := by
  rw [relist, contents_setHolder, contents_setContents _ _ _ _ hLive]

/-- No holder comes or goes with a list that is written anew. -/
theorem isLive_relist (holder : Holder) (ids : List ItemId) (id : ItemId) (link : Option Holder)
    (h : Holder) : (g.relist holder ids id link).isLive h = g.isLive h := by
  rw [relist, isLive_setHolder, isLive_setContents]

/-- Besides the list of the holder, the link of one item is written, and nothing else. -/
theorem node?_relist (holder : Holder) (ids : List ItemId) (id j : ItemId)
    (link : Option Holder) :
    (g.relist holder ids id link).node? j = (g.node? j).map fun n =>
      { item := n.item
        holder := if j = id then link else n.holder
        contents := if holder = .item j then ids else n.contents } := by
  rw [relist, node?_setHolder, node?_setContents]
  cases g.node? j with
  | none => split_ifs <;> rfl
  | some n => split_ifs <;> rfl

/-- No tile comes or goes with a list that is written anew. -/
theorem isSome_tile?_relist (holder : Holder) (ids : List ItemId) (id : ItemId)
    (link : Option Holder) (p : Position) :
    ((g.relist holder ids id link).tile? p).isSome = (g.tile? p).isSome :=
  isLive_relist holder ids id link (.tile p)

/-- The tiles keep their houses. -/
theorem house_relist (holder : Holder) (ids : List ItemId) (id : ItemId) (link : Option Holder)
    (p : Position) :
    ((g.relist holder ids id link).tile? p).map (·.house) = (g.tile? p).map (·.house) := by
  rw [relist, tile?_eq_of_tiles (tiles_setHolder _ _ _), tile?_setContents]
  split_ifs
  · rw [Option.map_map]
    rfl
  · rfl

/-- No number is handed out. -/
theorem next_relist (holder : Holder) (ids : List ItemId) (id : ItemId) (link : Option Holder) :
    (g.relist holder ids id link).next = g.next := by
  rw [relist, next_setHolder, next_setContents]

/-- Some rank puts an item below a container that does not lie in it. -/
theorem Consistent.exists_rank_lt (hg : g.Consistent) {id c : ItemId}
    (hApart : ¬ Relation.ReflTransGen g.Lies c id) :
    ∃ rank : ItemId → Nat, (∀ inner outer, g.Lies inner outer → rank inner < rank outer)
      ∧ rank id < rank c := by
  classical
  obtain ⟨rank, hRank⟩ := hg.ranked
  -- The container and all that it lies in rise above the item.
  refine ⟨fun x => if Relation.ReflTransGen g.Lies c x then rank x + rank id + 1 else rank x,
    ?_, ?_⟩
  · intro inner outer hLies
    have hLess := hRank inner outer hLies
    by_cases hInner : Relation.ReflTransGen g.Lies c inner
    · have hOuter : Relation.ReflTransGen g.Lies c outer := hInner.tail hLies
      simp only [if_pos hInner, if_pos hOuter]
      omega
    · simp only [if_neg hInner]
      split_ifs
      · omega
      · exact hLess
  · simp only [if_neg hApart, if_pos Relation.ReflTransGen.refl]
    omega

/-- What is linked to nothing stands in no list. -/
theorem Consistent.not_mem_contents (hg : g.Consistent) {id : ItemId} {n : Node}
    (hn : g.node? id = some n) (hFree : n.holder = none) (h : Holder) : id ∉ g.contents h := by
  intro hMem
  obtain ⟨n', hn', hh⟩ := hg.linked h id hMem
  rw [hn] at hn'
  rw [← Option.some_inj.1 hn', hFree] at hh
  cases hh

/-- What lies in something once an item has been put into a holder. -/
theorem lies_of_lies_place {target : Holder} {id inner outer : ItemId} {index : Nat}
    (hLive : g.isLive target = true)
    (h : (g.relist target (insertAt index id (g.contents target)) id target).Lies inner outer) :
    g.Lies inner outer ∨ inner = id ∧ target = .item outer := by
  rw [Lies, contents_relist hLive] at h
  split_ifs at h with hTarget
  · rcases mem_insertAt.1 h with hNew | hOld
    · exact .inr ⟨hNew, hTarget.symm⟩
    · exact .inl (by rw [Lies, hTarget]; exact hOld)
  · exact .inl h

/-- The ranks once an item has been put into a holder that does not lie in it. -/
theorem Consistent.exists_rank_place (hg : g.Consistent) {target : Holder} {id : ItemId}
    (index : Nat) (hLive : g.isLive target = true)
    (hApart : ∀ c, target = .item c → ¬ Relation.ReflTransGen g.Lies c id) :
    ∃ rank : ItemId → Nat, ∀ inner outer,
      (g.relist target (insertAt index id (g.contents target)) id target).Lies inner outer →
      rank inner < rank outer := by
  cases target with
  | tile p =>
    obtain ⟨rank, hRank⟩ := hg.ranked
    refine ⟨rank, ?_⟩
    intro inner outer hIn
    rcases lies_of_lies_place hLive hIn with hOld | ⟨_, hTarget⟩
    · exact hRank inner outer hOld
    · cases hTarget
  | item c =>
    -- The item is moved below the container first.
    obtain ⟨rank, hRank, hLess⟩ := hg.exists_rank_lt (hApart c rfl)
    refine ⟨rank, ?_⟩
    intro inner outer hIn
    rcases lies_of_lies_place hLive hIn with hOld | ⟨rfl, hTarget⟩
    · exact hRank inner outer hOld
    · obtain rfl := Holder.item.inj hTarget
      exact hLess

/-- **An item that lies nowhere, put into a holder that may take it.** -/
theorem Consistent.place (hg : g.Consistent) {target : Holder} {id : ItemId} {n : Node}
    (index : Nat) (hn : g.node? id = some n) (hFree : n.holder = none)
    (hLive : g.isLive target = true)
    (hInto : ∀ c, target = .item c →
      g.isContainer c = true ∧ ¬ Relation.ReflTransGen g.Lies c id) :
    (g.relist target (insertAt index id (g.contents target)) id target).Consistent := by
  have hContents := contents_relist hLive (insertAt index id (g.contents target)) id (some target)
  have hNowhere := hg.not_mem_contents hn hFree
  constructor
  case linked =>
    intro h j hMem
    rw [hContents] at hMem
    rw [node?_relist]
    by_cases hj : j = id
    · subst hj
      rw [hn]
      split_ifs at hMem with hh
      · exact ⟨_, rfl, by rw [hh]; exact if_pos rfl⟩
      · -- Before, the item stood in no list, and the target's is the only new one.
        exact absurd hMem (hNowhere h)
    · -- Another item stands where it stood.
      have hOld : j ∈ g.contents h := by
        split_ifs at hMem with hh
        · rw [hh]
          exact (mem_insertAt.1 hMem).resolve_left hj
        · exact hMem
      obtain ⟨m, hm, hHolder⟩ := hg.linked h j hOld
      rw [hm]
      exact ⟨_, rfl, by rw [← hHolder]; exact if_neg hj⟩
  case listed =>
    intro j m h hm hHolder hLive'
    rw [node?_relist] at hm
    rw [isLive_relist] at hLive'
    obtain ⟨old, hNode, rfl⟩ := Option.map_eq_some_iff.1 hm
    rw [hContents]
    by_cases hj : j = id
    · rw [if_pos hj] at hHolder
      rw [if_pos (Option.some_inj.1 hHolder).symm, hj]
      exact mem_insertAt.2 (.inl rfl)
    · rw [if_neg hj] at hHolder
      have hOld := hg.listed j old h hNode hHolder hLive'
      split_ifs with hh
      · exact mem_insertAt.2 (.inr (hh ▸ hOld))
      · exact hOld
  case nodup =>
    intro h
    rw [hContents]
    split_ifs with hh
    · exact nodup_insertAt (hg.nodup target) (hNowhere target)
    · exact hg.nodup h
  case holds =>
    intro j m hm hNonempty
    rw [node?_relist] at hm
    obtain ⟨old, hNode, rfl⟩ := Option.map_eq_some_iff.1 hm
    -- The list that grows is that of a container; the others are as long as before.
    by_cases hj : target = .item j
    · have hContainer := (hInto j hj).1
      rw [isContainer, item?, hNode] at hContainer
      exact hContainer
    · rw [if_neg hj] at hNonempty
      exact hg.holds j old hNode hNonempty
  case numbered =>
    intro j m hm
    rw [node?_relist] at hm
    obtain ⟨old, hNode, _⟩ := Option.map_eq_some_iff.1 hm
    rw [next_relist]
    exact hg.numbered j old hNode
  case linkNumbered =>
    intro j m c hm hHolder
    rw [node?_relist] at hm
    obtain ⟨old, hNode, rfl⟩ := Option.map_eq_some_iff.1 hm
    rw [next_relist]
    by_cases hj : j = id
    · -- The new link names the target, which is there.
      rw [if_pos hj] at hHolder
      rw [Option.some_inj.1 hHolder] at hLive
      obtain ⟨m', hm'⟩ := Option.isSome_iff_exists.1 (show (g.node? c).isSome = true from hLive)
      exact hg.numbered c m' hm'
    · rw [if_neg hj] at hHolder
      exact hg.linkNumbered j old c hNode hHolder
  case linkTiled =>
    intro j m p hm hHolder
    rw [node?_relist] at hm
    obtain ⟨old, hNode, rfl⟩ := Option.map_eq_some_iff.1 hm
    rw [isSome_tile?_relist]
    by_cases hj : j = id
    · rw [if_pos hj] at hHolder
      rw [Option.some_inj.1 hHolder] at hLive
      exact hLive
    · rw [if_neg hj] at hHolder
      exact hg.linkTiled j old p hNode hHolder
  -- The target does not lie in the item, so a rank can be found above it.
  case ranked => exact hg.exists_rank_place index hLive fun c hc => (hInto c hc).2

/-- **An item taken out of the holder that it lies in.** -/
theorem Consistent.release (hg : g.Consistent) {holder : Holder} {id : ItemId}
    (hMem : id ∈ g.contents holder) :
    (g.relist holder ((g.contents holder).erase id) id none).Consistent := by
  have hContents := contents_relist (g.isLive_of_mem_contents hMem)
    ((g.contents holder).erase id) id none
  -- One list is shorter by the item, and the others are as they were.
  have hLists : ∀ h, ((g.relist holder ((g.contents holder).erase id) id none).contents h).Sublist
      (g.contents h) := by
    intro h
    rw [hContents]
    split_ifs with hh
    · rw [hh]
      exact List.erase_sublist
    · exact List.Sublist.refl _
  refine hg.of_loosened ⟨hLists, ?node, ?tiles, Nat.le_of_eq (next_relist _ _ _ _).symm⟩ ?_ ?_
  case node =>
    intro j n' hn'
    rw [node?_relist] at hn'
    obtain ⟨n, hn, rfl⟩ := Option.map_eq_some_iff.1 hn'
    refine ⟨n, hn, ?_, fun _ => rfl⟩
    intro h hLink
    have hKept : (if j = id then none else n.holder) = some h := hLink
    split_ifs at hKept
    exact hKept
  case tiles =>
    intro p hp
    rw [isSome_tile?_relist]
    exact hp
  · intro h j hj
    -- The item itself stands in no list any more.
    have hne : j ≠ id := by
      rintro rfl
      obtain rfl := hg.holder_unique ((hLists h).subset hj) hMem
      rw [hContents, if_pos rfl] at hj
      exact (hg.nodup h).not_mem_erase hj
    obtain ⟨n, hn, hLink⟩ := hg.linked h j ((hLists h).subset hj)
    rw [node?_relist, hn]
    exact ⟨_, rfl, by rw [← hLink]; exact if_neg hne⟩
  · intro j m h hm hLink hLive
    rw [node?_relist] at hm
    rw [isLive_relist] at hLive
    obtain ⟨old, hNode, rfl⟩ := Option.map_eq_some_iff.1 hm
    by_cases hj : j = id
    · rw [if_pos hj] at hLink
      cases hLink
    · rw [if_neg hj] at hLink
      -- Another item keeps its link, and stands in its list still.
      have hOld := hg.listed j old h hNode hLink hLive
      rw [hContents]
      split_ifs with hh
      · exact (List.mem_erase_of_ne hj).2 (hh ▸ hOld)
      · exact hOld

/-! ## §3. Putting, taking, moving. -/

/-- What an insertion that is not refused has found and does. -/
theorem insert_eq_ok {target : Holder} {index : Nat} {id : ItemId}
    (h : g.insert target index id = .ok g') :
    ∃ n, g.node? id = some n ∧ n.holder = none ∧ g.isLive target = true
      ∧ (∀ c, target = .item c → g.isContainer c = true ∧ g.encloses id c = false)
      ∧ g' = g.relist target (insertAt index id (g.contents target)) id target := by
  rw [insert_eq] at h
  split at h
  next => cases h
  next n hn =>
    split at h
    next => cases h
    next hFree =>
      have hNone : n.holder = none := by simpa using hFree
      -- A tile takes anything; an item has to hold things and not lie in what it takes.
      unfold checkTarget at h
      cases target with
      | tile p =>
        by_cases hTile : (g.tile? p).isSome
        · simp only [hTile, if_true] at h
          exact ⟨n, hn, hNone, hTile, (fun c hc => by cases hc), (Except.ok.inj h).symm⟩
        · simp only [hTile] at h
          cases h
      | item c =>
        by_cases hContainer : g.isContainer c
        · by_cases hEncloses : g.encloses id c
          · simp only [hContainer, hEncloses] at h
            cases h
          · simp only [hContainer, hEncloses] at h
            -- What holds things is there.
            have hLive : g.isLive (.item c) = true := by
              rw [isContainer, item?] at hContainer
              show (g.node? c).isSome = true
              cases hc : g.node? c with
              | some m => rfl
              | none =>
                rw [hc] at hContainer
                cases hContainer
            refine ⟨n, hn, hNone, hLive, ?_, (Except.ok.inj h).symm⟩
            intro c' hc'
            cases hc'
            exact ⟨hContainer, Bool.eq_false_iff.2 hEncloses⟩
        · simp only [hContainer] at h
          cases h

/-- An insertion that goes through keeps the links in order. -/
theorem Consistent.insert (hg : g.Consistent) {target : Holder} {index : Nat} {id : ItemId}
    (h : g.insert target index id = .ok g') : g'.Consistent := by
  obtain ⟨n, hn, hFree, hLive, hInto, rfl⟩ := insert_eq_ok h
  refine hg.place index hn hFree hLive ?_
  intro c hc
  refine ⟨(hInto c hc).1, ?_⟩
  -- The walk up the links finds whatever the target lies in.
  intro hReach
  have hEncloses := hg.encloses_of_lies hReach
  rw [(hInto c hc).2] at hEncloses
  cases hEncloses

/-- An addition that goes through keeps the links in order. -/
theorem Consistent.add (hg : g.Consistent) {target : Holder} {id : ItemId}
    (h : g.add target id = .ok g') : g'.Consistent :=
  hg.insert h

/-- What is removed was in the list, and one occurrence of it is struck out. -/
theorem remove_eq_ok {holder : Holder} {id : ItemId} (h : g.remove holder id = .ok g') :
    id ∈ g.contents holder
      ∧ g' = g.relist holder ((g.contents holder).erase id) id none := by
  rw [remove_eq] at h
  by_cases hMem : id ∈ g.contents holder
  · rw [if_pos (List.contains_iff_mem.2 hMem)] at h
    exact ⟨hMem, (Except.ok.inj h).symm⟩
  · rw [if_neg (fun h' => hMem (List.contains_iff_mem.1 h'))] at h
    cases h

/-- A removal that goes through keeps the links in order. -/
theorem Consistent.remove (hg : g.Consistent) {holder : Holder} {id : ItemId}
    (h : g.remove holder id = .ok g') : g'.Consistent := by
  obtain ⟨hMem, rfl⟩ := remove_eq_ok h
  exact hg.release hMem

/-- Taking away the link of an item that stands in no list. -/
theorem Consistent.unlink (hg : g.Consistent) {id : ItemId} (h : ∀ holder, id ∉ g.contents holder) :
    (g.setHolder id none).Consistent := by
  -- A node as it was, and what has become of it.
  have hNode : ∀ j m, (g.setHolder id none).node? j = some m → ∃ old, g.node? j = some old
      ∧ m = if j = id then { old with holder := none } else old := by
    intro j m hm
    rw [node?_setHolder] at hm
    split_ifs at hm with hj
    · obtain ⟨old, hOld, rfl⟩ := Option.map_eq_some_iff.1 hm
      exact ⟨old, hOld, (if_pos hj).symm⟩
    · exact ⟨m, hm, (if_neg hj).symm⟩
  refine hg.of_loosened ⟨?lists, ?node, ?tiles, Nat.le_of_eq (next_setHolder g id none).symm⟩ ?_ ?_
  case lists =>
    intro holder
    rw [contents_setHolder]
  case node =>
    intro j m hm
    obtain ⟨old, hOld, rfl⟩ := hNode j m hm
    refine ⟨old, hOld, ?_, ?_⟩
    · intro holder hLink
      split_ifs at hLink
      exact hLink
    · intro _
      split_ifs <;> rfl
  case tiles =>
    intro p hp
    rw [tile?_eq_of_tiles (tiles_setHolder g id none)]
    exact hp
  · -- The item stands in no list, so no list has lost a link.
    intro holder j hMem
    rw [contents_setHolder] at hMem
    obtain ⟨n, hn, hLink⟩ := hg.linked holder j hMem
    have hj : j ≠ id := by
      rintro rfl
      exact h holder hMem
    exact ⟨n, by rw [node?_setHolder, if_neg hj, hn], hLink⟩
  · intro j m holder hm hLink hLive
    rw [isLive_setHolder] at hLive
    rw [contents_setHolder]
    obtain ⟨old, hOld, rfl⟩ := hNode j m hm
    split_ifs at hLink
    exact hg.listed j old holder hOld hLink hLive

/-- **An item that is detached** has no holder to be taken out of, or is taken out of it.  The holder
that is given back is the one that it was linked to. -/
theorem detach_eq_ok {id : ItemId} {former : Option Holder}
    (h : g.detach id = .ok (former, g')) :
    former = g.parent? id
      ∧ (g.parent? id = none ∧ g' = g.setHolder id none
        ∨ ∃ holder, g.remove holder id = .ok g') := by
  rw [Graph.detach_eq] at h
  split at h
  next hParent =>
    obtain ⟨rfl, rfl⟩ := Prod.mk.inj (Except.ok.inj h)
    exact ⟨hParent.symm, .inl ⟨hParent, rfl⟩⟩
  -- An item with a holder is detached by its removal.
  next holder hParent =>
    cases hRemove : g.remove holder id with
    | error e =>
      rw [hRemove] at h
      cases h
    | ok g₁ =>
      rw [hRemove] at h
      obtain ⟨rfl, rfl⟩ := Prod.mk.inj (Except.ok.inj h)
      exact ⟨hParent.symm, .inr ⟨holder, hRemove⟩⟩

/-- An item that is taken from its holder leaves the links in order. -/
theorem Consistent.detach (hg : g.Consistent) {id : ItemId} {former : Option Holder}
    (h : g.detach id = .ok (former, g')) : g'.Consistent := by
  rcases (detach_eq_ok h).2 with ⟨hParent, rfl⟩ | ⟨holder, hRemove⟩
  · -- A dead link, or none: then it stands in no list.
    refine hg.unlink ?_
    intro holder hMem
    rw [hg.mem_contents_iff, hParent] at hMem
    cases hMem
  · exact hg.remove hRemove

/-- A move keeps the links in order, whether it goes through or not. -/
theorem Consistent.move (hg : g.Consistent) (id : ItemId) (target : Holder) :
    (g.move id target).2.Consistent := by
  obtain hSame | ⟨former, g₁, hDetach, hOut | ⟨holder, -, hAdd⟩⟩ := g.move_cases id target
  · rw [hSame]
    exact hg
  · rw [hOut]
    exact hg.detach hDetach
  · exact (hg.detach hDetach).add hAdd

/-! ## §4. Change of type. -/

/-- Takes away the links of items. -/
def unlinkAll (g : Graph) (ids : List ItemId) : Graph :=
  ids.foldl (fun g child => g.setHolder child none) g

/-- The items that are released lose their holder; the others stay as they are. -/
theorem node?_unlinkAll (ids : List ItemId) (j : ItemId) :
    (g.unlinkAll ids).node? j
      = (g.node? j).map fun n => if j ∈ ids then { n with holder := none } else n := by
  induction ids generalizing g with
  | nil =>
    show g.node? j = _
    simp
  | cons id ids ih =>
    show ((g.setHolder id none).unlinkAll ids).node? j = _
    rw [ih, node?_setHolder]
    -- An item may stand twice in the list: it is let go the first time, and the rest changes
    -- nothing.
    by_cases hj : j = id
    · rw [if_pos hj, Option.map_map]
      cases g.node? j with
      | none => rfl
      | some n => by_cases hMem : j ∈ ids <;> simp [hj]
    · rw [if_neg hj]
      simp only [List.mem_cons, hj, false_or]

/-- Releasing items writes no tile: their lists are dealt with elsewhere. -/
theorem tiles_unlinkAll (ids : List ItemId) : (g.unlinkAll ids).tiles = g.tiles := by
  induction ids generalizing g with
  | nil => rfl
  | cons id ids ih =>
    show ((g.setHolder id none).unlinkAll ids).tiles = _
    rw [ih, tiles_setHolder]

theorem next_unlinkAll (ids : List ItemId) : (g.unlinkAll ids).next = g.next := by
  induction ids generalizing g with
  | nil => rfl
  | cons id ids ih =>
    show ((g.setHolder id none).unlinkAll ids).next = _
    rw [ih, next_setHolder]

/-- The graph in which an item has become `item` and holds nothing any more. -/
def spill (g : Graph) (id : ItemId) (item : Item) : Graph :=
  (g.updateNode id fun n => { n with item, contents := [] }).unlinkAll (g.contents (.item id))

/-- An item that spills gets its new data and an empty list, and what it held is released. -/
theorem node?_spill (id j : ItemId) (item : Item) :
    (g.spill id item).node? j = (g.node? j).map fun n =>
      { item := if j = id then item else n.item
        holder := if g.Lies j id then none else n.holder
        contents := if j = id then [] else n.contents } := by
  rw [spill, node?_unlinkAll, node?_updateNode]
  cases g.node? j with
  | none => split_ifs <;> rfl
  | some n =>
    unfold Lies
    by_cases hj : j = id
    · by_cases hMem : id ∈ g.contents (.item id) <;> simp [hj, hMem]
    · by_cases hMem : j ∈ g.contents (.item id) <;> simp [hj, hMem]

theorem tiles_spill (id : ItemId) (item : Item) : (g.spill id item).tiles = g.tiles := by
  rw [spill, tiles_unlinkAll, tiles_updateNode]

theorem next_spill (id : ItemId) (item : Item) : (g.spill id item).next = g.next := by
  rw [spill, next_unlinkAll, next_updateNode]

/-- Only the list of the item that spills is emptied. -/
theorem contents_spill (id : ItemId) (item : Item) (h : Holder) :
    (g.spill id item).contents h = if h = .item id then [] else g.contents h := by
  cases h with
  | tile p => rw [contents, tile?_eq_of_tiles (tiles_spill id item), if_neg (by simp), contents]
  | item j =>
    rw [contents, node?_spill, contents]
    cases g.node? j with
    | none => split_ifs <;> rfl
    | some n => by_cases hj : j = id <;> simp [hj]

/-- No holder comes or goes when an item spills. -/
theorem isLive_spill (id : ItemId) (item : Item) (h : Holder) :
    (g.spill id item).isLive h = g.isLive h := by
  cases h with
  | tile p => rw [isLive, tile?_eq_of_tiles (tiles_spill id item), isLive]
  | item j => rw [isLive, node?_spill, Option.isSome_map, isLive]

/-- The links stay in order: what loses its place in the list loses its holder too. -/
theorem Consistent.spill (hg : g.Consistent) (id : ItemId) (item : Item) :
    (g.spill id item).Consistent := by
  refine hg.of_loosened ⟨?lists, ?node, ?tiles, Nat.le_of_eq (next_spill id item).symm⟩ ?_ ?_
  case lists =>
    intro h
    rw [contents_spill]
    split_ifs
    · exact List.nil_sublist _
    · exact List.Sublist.refl _
  -- Links are cleared and one list is emptied; nothing else is written.
  case node =>
    intro j m hm
    rw [node?_spill] at hm
    obtain ⟨old, hNode, rfl⟩ := Option.map_eq_some_iff.1 hm
    refine ⟨old, hNode, ?_, ?_⟩
    · intro h hLink
      have hKept : (if g.Lies j id then none else old.holder) = some h := hLink
      split_ifs at hKept
      exact hKept
    · intro hNonempty
      have hList : (if j = id then [] else old.contents) ≠ [] := hNonempty
      split_ifs at hList with hj
      · exact absurd rfl hList
      · exact if_neg hj
  case tiles =>
    intro p hp
    rw [tile?_eq_of_tiles (tiles_spill id item)]
    exact hp
  · -- What stands in another list does not lie in the item: links are unique.
    intro h j hMem
    rw [contents_spill] at hMem
    split_ifs at hMem with hh
    · cases hMem
    · obtain ⟨n, hn, hLink⟩ := hg.linked h j hMem
      have hNot : ¬ g.Lies j id := fun hLies => hh (hg.holder_unique hMem hLies)
      rw [node?_spill, hn]
      exact ⟨_, rfl, by rw [← hLink]; exact if_neg hNot⟩
  · intro j m h hm hLink hLive
    rw [node?_spill] at hm
    rw [isLive_spill] at hLive
    obtain ⟨old, hNode, rfl⟩ := Option.map_eq_some_iff.1 hm
    -- What lies in the item is let go, so no link of it is left to account for.
    by_cases hLies : g.Lies j id
    · rw [if_pos hLies] at hLink
      cases hLink
    · rw [if_neg hLies] at hLink
      have hOld := hg.listed j old h hNode hLink hLive
      rw [contents_spill, if_neg]
      · exact hOld
      · rintro rfl
        exact hLies hOld

/-- A change of type is a change of data where the new type holds items, and a spill where it does
not. -/
theorem retype_eq (c : Catalog) {id : ItemId} {n : Node} (newType : TypeId)
    (hn : g.node? id = some n) :
    g.retype c id newType
      = if (n.item.become c newType).isContainer then
          g.update id fun _ => n.item.become c newType
        else g.spill id (n.item.become c newType) := by
  unfold retype spill unlinkAll
  rw [g.contents_item hn, hn]

/-- **What a change of type can do**: nothing, where there is no item; otherwise what still holds
items is given other data, and what does not spills them. -/
theorem retype_cases (g : Graph) (c : Catalog) (id : ItemId) (newType : TypeId) :
    g.retype c id newType = g
    ∨ ∃ n, g.node? id = some n
      ∧ ((n.item.become c newType).isContainer = true
          ∧ g.retype c id newType = (g.update id fun _ => n.item.become c newType)
        ∨ g.retype c id newType = g.spill id (n.item.become c newType)) := by
  cases hn : g.node? id with
  | none =>
    left
    unfold Graph.retype
    rw [hn]
  | some n =>
    refine .inr ⟨n, rfl, ?_⟩
    rw [retype_eq c newType hn]
    split_ifs with hHolds
    · exact .inl ⟨hHolds, rfl⟩
    · exact .inr rfl

/-- A change of type writes no tile. -/
theorem tiles_retype (c : Catalog) (id : ItemId) (newType : TypeId) :
    (g.retype c id newType).tiles = g.tiles := by
  obtain hSame | ⟨n, -, ⟨-, hUpdated⟩ | hSpilt⟩ := g.retype_cases c id newType
  · rw [hSame]
  · rw [hUpdated]
    exact tiles_update g id _
  · rw [hSpilt]
    exact tiles_spill id _

/-- A change of type keeps the links in order. -/
theorem Consistent.retype (hg : g.Consistent) (c : Catalog) (id : ItemId) (newType : TypeId) :
    (g.retype c id newType).Consistent := by
  obtain hSame | ⟨n, -, ⟨hHolds, hUpdated⟩ | hSpilt⟩ := g.retype_cases c id newType
  · rw [hSame]
    exact hg
  · rw [hUpdated]
    exact hg.update id _ fun _ _ _ => hHolds
  · rw [hSpilt]
    exact hg.spill id _

/-! ## §5. Tiles. -/

/-- A tile that is made has nothing on it, and there was nothing before. -/
theorem contents_ensureTile (p : Position) (h : Holder) :
    (g.ensureTile p).contents h = g.contents h := by
  unfold Graph.ensureTile
  split
  next => rfl
  next hp =>
    cases h with
    | tile q =>
      show (((g.tiles.insert p {})[q]?).map (·.contents)).getD [] = _
      rw [tile?_insert, contents]
      split_ifs with hq
      · -- The tile was not there, which reads as an empty list.
        rw [hq, hp]
        rfl
      · rfl
    | item j => rfl

/-- A tile that is made is empty and of no house. -/
theorem tile?_ensureTile {p : Position} (hNone : g.tile? p = none) (q : Position) :
    (g.ensureTile p).tile? q = if q = p then some {} else g.tile? q := by
  unfold Graph.ensureTile
  rw [hNone]
  exact tile?_insert g.tiles p q {}

/-- The links stay in order when a tile is made: it holds nothing yet. -/
theorem Consistent.ensureTile (hg : g.Consistent) (p : Position) :
    (g.ensureTile p).Consistent := by
  cases hp : g.tile? p with
  -- A tile that is there is left alone.
  | some t =>
    unfold Graph.ensureTile
    rw [hp]
    exact hg
  | none =>
    have hEq : g.ensureTile p = { g with tiles := g.tiles.insert p {} } := by
      unfold Graph.ensureTile
      rw [hp]
    have hTile := tile?_ensureTile hp
    have hNode : ∀ j, (g.ensureTile p).node? j = g.node? j := by
      intro j
      rw [hEq]
      rfl
    have hNext : (g.ensureTile p).next = g.next := by rw [hEq]
    -- The new tile is empty, so all lists are as before.
    have hContents := contents_ensureTile (g := g) p
    refine hg.of_loosened ⟨?lists, ?node, ?tiles, Nat.le_of_eq hNext.symm⟩ ?_ ?_
    case lists =>
      intro h
      rw [hContents]
    case node =>
      intro j m hm
      exact ⟨m, hNode j ▸ hm, fun _ hLink => hLink, fun _ => rfl⟩
    case tiles =>
      intro q hq
      rw [hTile]
      split_ifs
      · rfl
      · exact hq
    · intro h j hMem
      rw [hContents] at hMem
      rw [hNode]
      exact hg.linked h j hMem
    · intro j m h hm hLink hLive
      rw [hNode] at hm
      rw [hContents]
      -- A link to a tile names one that was there before.
      refine hg.listed j m h hm hLink ?_
      cases h with
      | tile q => exact hg.linkTiled j m q hm hLink
      | item c => rwa [isLive, hNode] at hLive

end Graph

end Homestead
