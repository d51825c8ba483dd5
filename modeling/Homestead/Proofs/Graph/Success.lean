/-
  Homestead.Proofs.Graph.Success
  ──────────────────────────────
  **WHAT IS NEVER REFUSED.**

  In a consistent graph a new item can be put on every tile and into every
  container there is, and what stands in a list can be taken out of it.
  So a container can be emptied, and filled with records that fit.

  Main results:
    * `add_tile`, `Consistent.add_item` — putting an item;
    * `Consistent.add_onTile` — putting a new tree on a tile;
    * `Consistent.emptyOut` — emptying a container;
    * `Consistent.tileOf?_of_reaches` — the tile that an item lies on.
-/
import Homestead.Proofs.Graph.Items
import Homestead.Proofs.Graph.Regions
import Homestead.World.Restore

namespace Homestead

namespace Graph

variable {g g' : Graph}

/-! ## §1. Walks outwards. -/

/-- The walk along links comes to containers only that the item lies in. -/
theorem Consistent.lies_of_mem_holdersWithin (hg : g.Consistent) {steps : Nat} {id c : ItemId}
    (h : Holder.item c ∈ g.holdersWithin steps id) : Relation.TransGen g.Lies id c := by
  induction steps generalizing id with
  | zero => cases h
  | succ steps ih =>
    rw [holdersWithin] at h
    split at h
    next => cases h
    -- At a tile the walk ends, and a tile is no container.
    next p _ => simp at h
    next outer hParent =>
      have hLies := hg.parent?_item.1 hParent
      rcases List.mem_cons.1 h with hEq | hRest
      · obtain rfl := Holder.item.inj hEq
        exact .single hLies
      · exact .head hLies (ih hRest)

/-- The walk finds exactly what lies in an item. -/
theorem Consistent.encloses_iff (hg : g.Consistent) {id c : ItemId} :
    g.encloses c id = true ↔ g.Reaches id c := by
  constructor
  · intro h
    rw [encloses, Bool.or_eq_true, beq_iff_eq, List.contains_iff_mem] at h
    rcases h with rfl | hMem
    · exact .refl
    · exact (hg.lies_of_mem_holdersWithin hMem).to_reflTransGen
  · exact hg.encloses_of_lies

/-- From what lies on a tile, however deep, the walk along links ends at the tile. -/
theorem Consistent.getLast?_holdersWithin (hg : g.Consistent) {depth : ItemId → Nat}
    (hDepth : ∀ inner outer, g.Lies inner outer → depth outer < depth inner) {root : ItemId}
    {p : Position} (hRoot : root ∈ g.contents (.tile p)) (steps : Nat) {j : ItemId}
    (hReach : g.Reaches j root) (hSteps : depth j < steps) :
    (g.holdersWithin steps j).getLast? = some (.tile p) := by
  induction steps generalizing j with
  | zero => exact absurd hSteps (Nat.not_lt_zero _)
  | succ steps ih =>
    rw [holdersWithin]
    rcases Relation.ReflTransGen.cases_head hReach with rfl | ⟨outer, hLies, hRest⟩
    · -- The item is the root: its link is the tile, and the walk has one step.
      rw [hg.mem_contents_iff.1 hRoot]
      rfl
    · -- The container is less deep, so the steps that are left are enough for it.
      have hLess := hDepth j outer hLies
      rw [hg.mem_contents_iff.1 hLies]
      dsimp only
      rw [List.getLast?_cons, ih hRest (by omega), Option.getD_some]

/-- **The tile of all that lies on it**, however deep. -/
theorem Consistent.tileOf?_of_reaches (hg : g.Consistent) {root j : ItemId} {p : Position}
    (hRoot : root ∈ g.contents (.tile p)) (hReach : g.Reaches j root) : g.tileOf? j = some p := by
  obtain ⟨depth, hDepth, hSize⟩ := hg.exists_depth
  -- The walk takes as many steps as there are items, which is enough only for an item that is
  -- there.
  have hNode : (g.node? j).isSome := by
    rcases Relation.ReflTransGen.cases_head hReach with rfl | ⟨outer, hLies, _⟩
    · obtain ⟨n, hn, _⟩ := hg.linked _ _ hRoot
      rw [hn]
      rfl
    · obtain ⟨n, hn, _⟩ := hg.linked _ _ hLies
      rw [hn]
      rfl
  unfold tileOf? top? holders
  rw [hg.getLast?_holdersWithin hDepth hRoot g.size hReach (hSize j hNode)]

/-! ## §2. Putting. -/

theorem add_eq_insert (target : Holder) (id : ItemId) :
    insertAt (g.contents target).length id (g.contents target) = g.contents target ++ [id] :=
  insertAt_length id _

/-- **An item that lies nowhere can be put on every tile.** -/
theorem add_tile {p : Position} {id : ItemId} {n : Node} (hn : g.node? id = some n)
    (hFree : n.holder = none) (hTile : (g.tile? p).isSome) :
    g.add (.tile p) id
      = .ok (g.relist (.tile p) (g.contents (.tile p) ++ [id]) id (some (.tile p))) := by
  have hCheck : g.checkTarget (.tile p) id = .ok () := by
    unfold checkTarget
    exact if_pos hTile
  rw [add_eq, insert_eq, hn, hCheck, add_eq_insert]
  dsimp only
  rw [hFree]
  rfl

/-- **An item that lies nowhere can be put into every container that does not lie in it.** -/
theorem Consistent.add_item (hg : g.Consistent) {c id : ItemId} {n : Node}
    (hn : g.node? id = some n) (hFree : n.holder = none) (hHolds : g.isContainer c = true)
    (hApart : ¬ g.Reaches c id) :
    g.add (.item c) id
      = .ok (g.relist (.item c) (g.contents (.item c) ++ [id]) id (some (.item c))) := by
  have hCheck : g.checkTarget (.item c) id = .ok () := by
    unfold checkTarget
    dsimp only
    rw [hHolds, if_neg (by simp), if_neg]
    exact fun h => hApart (hg.encloses_iff.1 h)
  rw [add_eq, insert_eq, hn, hCheck, add_eq_insert]
  dsimp only
  rw [hFree]
  rfl

/-- The graph with a new tree at the end of a tile. -/
def onTile (g : Graph) (p : Position) (t : ItemTree) : Graph :=
  (g.create t).2.relist (.tile p) (g.contents (.tile p) ++ [(g.create t).1]) (g.create t).1
    (some (.tile p))

section OnTile

variable {p : Position} {t : ItemTree}

/-- **A new tree can be put on every tile.** -/
theorem Consistent.add_onTile (hg : g.Consistent) (hTree : t.Every ItemTree.Hollow)
    (hTile : (g.tile? p).isSome) :
    (g.create t).2.add (.tile p) (g.create t).1 = .ok (g.onTile p t) := by
  have hPlanted := planted_create hg hTree
  obtain ⟨_, n, hn, hFree⟩ := hPlanted.root _ List.mem_cons_self
  have hSame := tile?_eq_of_tiles hPlanted.tiles p
  have hList : (g.create t).2.contents (.tile p) = g.contents (.tile p) := by
    rw [contents, contents, hSame]
  have hAdd := add_tile hn hFree (by rw [hSame]; exact hTile)
  rwa [hList] at hAdd

/-- A new tree comes to lie behind what is on the tile. -/
theorem Consistent.contents_onTile (hg : g.Consistent) (hTree : t.Every ItemTree.Hollow)
    (hTile : (g.tile? p).isSome) :
    (g.onTile p t).contents (.tile p) = g.contents (.tile p) ++ [(g.create t).1] := by
  have hLive : (g.create t).2.isLive (.tile p) = true := by
    rw [isLive, tile?_eq_of_tiles (planted_create hg hTree).tiles]
    exact hTile
  rw [onTile, contents_relist hLive, if_pos rfl]

/-- A new tree is shown by its root. -/
theorem Consistent.shows_onTile (hg : g.Consistent) (hTree : t.Every ItemTree.Hollow)
    (p : Position) : (g.onTile p t).Shows (g.create t).1 t :=
  ((planted_create hg hTree).shows.relist_tile p _ _ _).1

/-- A new tree is confined to new numbers and to its tile. -/
theorem Consistent.confined_onTile (hg : g.Consistent) (hTree : t.Every ItemTree.Hollow)
    (p : Position) {S : ItemId → Prop} (hRegion : g.Region S) :
    Confined S (· = p) g (g.onTile p t) := by
  have hPlanted := planted_create hg hTree
  have hNew : Confined S (· = p) g (g.create t).2 := confined_planted hg hRegion hPlanted
  have hFresh : S (g.create t).1 := hRegion.fresh _ (hPlanted.root _ List.mem_cons_self).1
  exact hNew.trans (confined_relist_tile hNew.region _ _ rfl hFresh)

end OnTile

/-! ## §3. Emptying. -/

/-- `g'` is `g` with nothing in a container any more. -/
structure Emptied (g g' : Graph) (id : ItemId) : Prop where
  /-- The graph is consistent. -/
  consistent : g'.Consistent
  /-- The container holds nothing. -/
  empty : g'.contents (.item id) = []
  /-- The items are as before. -/
  items : ∀ j, g'.item? j = g.item? j
  /-- Tiles are as before, and so is the next number. -/
  tiles : g'.tiles = g.tiles ∧ g'.next = g.next
  /-- What lies outside a region with the container is as before. -/
  confined : ∀ (S : ItemId → Prop) (T : Position → Prop), g.Region S → S id → Confined S T g g'

/-- **A container can be emptied.** -/
theorem Consistent.emptyOut (hg : g.Consistent) (id : ItemId) :
    ∃ g', World.emptyOut g id = (.ok (), g') ∧ Emptied g g' id := by
  unfold World.emptyOut
  -- The first of the list goes, until the list is empty.
  generalize hList : g.contents (.item id) = ids
  induction ids generalizing g with
  | nil => exact ⟨g, rfl, hg, hList, fun _ => rfl, ⟨rfl, rfl⟩, fun S T h _ => Confined.refl h T⟩
  | cons child ids ih =>
    have hMem : child ∈ g.contents (.item id) := by
      rw [hList]
      exact List.mem_cons_self
    have hRemove : g.remove (.item id) child
        = .ok (g.relist (.item id) ((g.contents (.item id)).erase child) child none) := by
      rw [remove_eq, if_pos (List.contains_iff_mem.2 hMem)]
      rfl
    have hStep := hg.release hMem
    -- The first is the one that is erased, so the rest of the list is left.
    have hRest : (g.contents (.item id)).erase child = ids := by
      rw [hList, List.erase_cons_head]
    rw [hRest] at hRemove hStep
    have hNow : (g.relist (.item id) ids child none).contents (.item id) = ids := by
      rw [contents_relist (g.isLive_of_mem_contents hMem), if_pos rfl]
    obtain ⟨g', hEmpty, hEmptied⟩ := ih hStep hNow
    refine ⟨g', ?_, ?_⟩
    · rw [World.takeOut, tryRemove_of_ok hRemove]
      exact hEmpty
    · constructor
      case consistent => exact hEmptied.consistent
      case empty => exact hEmptied.empty
      case items =>
        intro j
        rw [hEmptied.items, item?_relist]
      case tiles =>
        rw [hEmptied.tiles.1, hEmptied.tiles.2, next_relist, relist, tiles_setHolder]
        exact ⟨tiles_updateNode g id _, rfl⟩
      case confined =>
        intro S T hRegion hid
        -- What lies in an item of the region is of the region, so that each step stays in it.
        have hChild : S child := hRegion.inward child id hMem hid
        have hids : ∀ j ∈ ids, S j := by
          intro j hj
          refine hRegion.inward j id ?_ hid
          rw [Lies, hList]
          exact List.mem_cons_of_mem child hj
        have hFirst : Confined S T g (g.relist (.item id) ids child none) :=
          confined_relist hRegion none hid hChild hids
        exact hFirst.trans (hEmptied.confined S T hFirst.region hid)

end Graph

end Homestead
