/-
  Homestead.Proofs.Graph.Lookup
  ─────────────────────────────
  **WHAT IS WHERE AFTER A SINGLE CHANGE.**

  A change of one node or one list shows in that node or list only.
-/
import Homestead.Item.Graph
import Mathlib.Data.List.Basic
import Mathlib.Tactic.SplitIfs

namespace Homestead

namespace Graph

variable (g : Graph)

/-! ## §1. Nodes and tiles. -/

/-- An item that is entered is found under its own number. -/
theorem node?_insert (nodes : Std.TreeMap ItemId Node) (id j : ItemId) (n : Node) :
    (nodes.insert id n)[j]? = if j = id then some n else nodes[j]? := by
  rw [Std.TreeMap.getElem?_insert]
  by_cases h : j = id
  · rw [if_pos h, if_pos (by rw [h]; exact Std.ReflCmp.compare_self)]
  · rw [if_neg h, if_neg]
    exact fun h' => h (Std.LawfulEqCmp.eq_of_compare h').symm

/-- A tile that is entered is found at its own place. -/
theorem tile?_insert (tiles : Std.TreeMap Position Tile) (p q : Position) (t : Tile) :
    (tiles.insert p t)[q]? = if q = p then some t else tiles[q]? := by
  rw [Std.TreeMap.getElem?_insert]
  by_cases h : q = p
  · rw [if_pos h, if_pos (by rw [h]; exact Std.ReflCmp.compare_self)]
  · rw [if_neg h, if_neg]
    exact fun h' => h (Std.LawfulEqCmp.eq_of_compare h').symm

/-- An update writes one node, and none if the item is not there. -/
theorem node?_updateNode (id j : ItemId) (f : Node → Node) :
    (g.updateNode id f).node? j = if j = id then (g.node? j).map f else g.node? j := by
  unfold updateNode
  split
  next n hn =>
    show (g.nodes.insert id (f n))[j]? = _
    rw [node?_insert]
    by_cases h : j = id
    · rw [if_pos h, if_pos h, h, hn]
      rfl
    · rw [if_neg h, if_neg h]
      rfl
  -- There is no item to update, so the look-up of it finds nothing before and after.
  next hn =>
    by_cases h : j = id
    · rw [if_pos h, h, hn]
      rfl
    · rw [if_neg h]

@[simp] theorem tiles_updateNode (id : ItemId) (f : Node → Node) :
    (g.updateNode id f).tiles = g.tiles := by
  unfold updateNode
  split <;> rfl

@[simp] theorem next_updateNode (id : ItemId) (f : Node → Node) :
    (g.updateNode id f).next = g.next := by
  unfold updateNode
  split <;> rfl

/-- A link that is written is the link of one item. -/
theorem node?_setHolder (id j : ItemId) (holder : Option Holder) :
    (g.setHolder id holder).node? j
      = if j = id then (g.node? j).map ({ · with holder }) else g.node? j :=
  node?_updateNode g id j _

@[simp] theorem tiles_setHolder (id : ItemId) (holder : Option Holder) :
    (g.setHolder id holder).tiles = g.tiles :=
  tiles_updateNode g id _

@[simp] theorem next_setHolder (id : ItemId) (holder : Option Holder) :
    (g.setHolder id holder).next = g.next :=
  next_updateNode g id _

/-- New data of an item leave its link and its list. -/
theorem node?_update (id j : ItemId) (f : Item → Item) :
    (g.update id f).node? j
      = if j = id then (g.node? j).map (fun n => { n with item := f n.item }) else g.node? j :=
  node?_updateNode g id j _

@[simp] theorem tiles_update (id : ItemId) (f : Item → Item) : (g.update id f).tiles = g.tiles :=
  tiles_updateNode g id _

@[simp] theorem next_update (id : ItemId) (f : Item → Item) : (g.update id f).next = g.next :=
  next_updateNode g id _

/-- A list that is written is found in the node of its holder, if that is an item. -/
theorem node?_setContents (holder : Holder) (ids : List ItemId) (j : ItemId) :
    (g.setContents holder ids).node? j
      = if holder = .item j then (g.node? j).map ({ · with contents := ids }) else g.node? j := by
  unfold setContents
  -- The list of a tile is written into the tiles, that of a container into its node.
  cases holder with
  | tile p =>
    rw [if_neg (by simp)]
    dsimp only
    cases g.tile? p <;> rfl
  | item id =>
    show (g.updateNode id _).node? j = _
    rw [node?_updateNode]
    simp [eq_comm]

/-- A list that is written is found on the tile, if the holder is one. -/
theorem tile?_setContents (holder : Holder) (ids : List ItemId) (q : Position) :
    (g.setContents holder ids).tile? q
      = if holder = .tile q then (g.tile? q).map ({ · with contents := ids }) else g.tile? q := by
  unfold setContents
  cases holder with
  | tile p =>
    dsimp only
    -- A tile that is not there is not made.
    cases ht : g.tile? p with
    | some t =>
      show (g.tiles.insert p { t with contents := ids })[q]? = _
      rw [tile?_insert]
      by_cases h : q = p
      · rw [if_pos h, if_pos (by rw [h]), h, ht]
        rfl
      · rw [if_neg h, if_neg (by simpa using fun h' => h h'.symm)]
        rfl
    | none =>
      by_cases h : Holder.tile p = .tile q
      · rw [if_pos h, ← Holder.tile.inj h, ht]
        rfl
      · rw [if_neg h]
  | item id =>
    rw [if_neg (by simp)]
    show (g.updateNode id _).tiles[q]? = _
    rw [tiles_updateNode]
    rfl

@[simp] theorem next_setContents (holder : Holder) (ids : List ItemId) :
    (g.setContents holder ids).next = g.next := by
  unfold setContents
  cases holder with
  | tile p =>
    dsimp only
    cases g.tile? p <;> rfl
  | item id => exact next_updateNode g id _

/-- Graphs with the same tiles find the same under a place. -/
theorem tile?_eq_of_tiles {g g' : Graph} (h : g'.tiles = g.tiles) (p : Position) :
    g'.tile? p = g.tile? p := by
  rw [tile?, tile?, h]

/-! ## §2. Lists. -/

/-- What a tile holds is its list. -/
theorem contents_tile {p : Position} {t : Tile} (h : g.tile? p = some t) :
    g.contents (.tile p) = t.contents := by
  rw [contents, h]
  rfl

/-- What an item holds is its list. -/
theorem contents_item {id : ItemId} {n : Node} (h : g.node? id = some n) :
    g.contents (.item id) = n.contents := by
  rw [contents, h]
  rfl

/-- Only a holder that exists holds something. -/
theorem isLive_of_mem_contents {h : Holder} {id : ItemId} (hMem : id ∈ g.contents h) :
    g.isLive h = true := by
  cases h with
  | tile p =>
    show (g.tile? p).isSome = true
    cases ht : g.tile? p with
    | some t => rfl
    -- Nothing lies where there is no holder, by which the list reads as empty.
    | none =>
      rw [contents, ht] at hMem
      cases hMem
  | item c =>
    show (g.node? c).isSome = true
    cases hn : g.node? c with
    | some n => rfl
    | none =>
      rw [contents, hn] at hMem
      cases hMem

/-- A list that is written is that of its holder, and the other lists stay. -/
theorem contents_setContents (holder h : Holder) (ids : List ItemId) (hLive : g.isLive holder) :
    (g.setContents holder ids).contents h = if h = holder then ids else g.contents h := by
  cases h with
  | tile q =>
    rw [contents, tile?_setContents]
    by_cases hq : holder = .tile q
    · subst hq
      rw [if_pos rfl, if_pos rfl]
      obtain ⟨t, ht⟩ := Option.isSome_iff_exists.1 (show (g.tile? q).isSome = true from hLive)
      rw [ht]
      rfl
    · rw [if_neg hq, if_neg fun h => hq h.symm]
      rfl
  | item j =>
    rw [contents, node?_setContents]
    by_cases hj : holder = .item j
    · subst hj
      rw [if_pos rfl, if_pos rfl]
      -- The holder is there, so that there is a list to write.
      obtain ⟨n, hn⟩ := Option.isSome_iff_exists.1 (show (g.node? j).isSome = true from hLive)
      rw [hn]
      rfl
    · rw [if_neg hj, if_neg fun h => hj h.symm]
      rfl

/-- A link is in no list. -/
theorem contents_setHolder (id : ItemId) (holder : Option Holder) (h : Holder) :
    (g.setHolder id holder).contents h = g.contents h := by
  cases h with
  | tile q => rw [contents, contents, tile?_eq_of_tiles (tiles_setHolder g id holder)]
  | item j =>
    rw [contents, contents, node?_setHolder]
    by_cases hj : j = id
    · rw [if_pos hj]
      cases g.node? j <;> rfl
    · rw [if_neg hj]

/-- The data of an item are in no list. -/
theorem contents_update (id : ItemId) (f : Item → Item) (h : Holder) :
    (g.update id f).contents h = g.contents h := by
  cases h with
  | tile q => rw [contents, contents, tile?_eq_of_tiles (tiles_update g id f)]
  | item j =>
    rw [contents, contents, node?_update]
    by_cases hj : j = id
    · rw [if_pos hj]
      cases g.node? j <;> rfl
    · rw [if_neg hj]

/-- A link that is written makes no holder and unmakes none. -/
theorem isLive_setHolder (id : ItemId) (holder : Option Holder) (h : Holder) :
    (g.setHolder id holder).isLive h = g.isLive h := by
  cases h with
  | tile q => rw [isLive, isLive, tile?_eq_of_tiles (tiles_setHolder g id holder)]
  | item j =>
    rw [isLive, isLive, node?_setHolder]
    by_cases hj : j = id
    · rw [if_pos hj, Option.isSome_map]
    · rw [if_neg hj]

/-- A list that is written makes no holder and unmakes none. -/
theorem isLive_setContents (holder h : Holder) (ids : List ItemId) :
    (g.setContents holder ids).isLive h = g.isLive h := by
  cases h with
  | tile q =>
    rw [isLive, isLive, tile?_setContents]
    split_ifs
    · rw [Option.isSome_map]
    · rfl
  | item j =>
    rw [isLive, isLive, node?_setContents]
    split_ifs
    · rw [Option.isSome_map]
    · rfl

/-! ## §3. Inserting into a list. -/

/-- What is in a list after an insertion is what was inserted or was there. -/
theorem mem_insertAt {index : Nat} {id j : ItemId} {ids : List ItemId} :
    j ∈ insertAt index id ids ↔ j = id ∨ j ∈ ids := by
  rw [insertAt, List.mem_append, List.mem_cons]
  have h : j ∈ ids ↔ j ∈ ids.take index ∨ j ∈ ids.drop index := by
    rw [← List.mem_append, List.take_append_drop]
  rw [h]
  exact or_left_comm

/-- A list without repetitions stays so when something new is inserted. -/
theorem nodup_insertAt {index : Nat} {id : ItemId} {ids : List ItemId} (hNodup : ids.Nodup)
    (hFresh : id ∉ ids) : (insertAt index id ids).Nodup := by
  have hPerm : (insertAt index id ids).Perm (id :: ids) := by
    rw [insertAt]
    refine List.perm_middle.trans ?_
    rw [List.take_append_drop]
  exact hPerm.nodup_iff.2 (List.nodup_cons.2 ⟨hFresh, hNodup⟩)

/-- An insertion at the end is an addition. -/
theorem insertAt_length (id : ItemId) (ids : List ItemId) :
    insertAt ids.length id ids = ids ++ [id] := by
  rw [insertAt, List.take_length, List.drop_length]

end Graph

end Homestead
