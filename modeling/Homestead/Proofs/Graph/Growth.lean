/-
  Homestead.Proofs.Graph.Growth
  ─────────────────────────────
  **NOTHING BECOMES LIGHTER WHEN SOMETHING IS PUT DOWN.**

  When an item is put into a holder, the holder has one more in its list
  and all other lists are as before.  So the tree of every item is what it
  was with something added inside, or what it was, and weighs no less.

  Main results:
    * `Grows`, `Grows.shows` — lists that get longer, and the trees then;
    * `grows_insert` — putting an item into a holder;
    * `World.weight_le_of_insert` — weights.
-/
import Homestead.Proofs.Graph.Moving
import Homestead.Proofs.Item.Weight

namespace Homestead

namespace Graph

variable {g g' : Graph}

/-! ## §1. Trees of a graph that grows. -/

/-- The items of the one graph are in the other one as well, and hold there what they hold here, in
order, and maybe more. -/
def Grows (g g' : Graph) : Prop :=
  ∀ id n, g.node? id = some n →
    ∃ n', g'.node? id = some n' ∧ n'.item = n.item ∧ n.contents.Sublist n'.contents

mutual

/-- **In a graph that has grown the trees have grown.** -/
theorem Grows.shows (h : g.Grows g') (hg' : g'.Consistent) : ∀ (t : ItemTree) (id : ItemId),
    g.Shows id t → ∃ u, g'.Shows id u ∧ t.Grown u
  | .node item contents, id, ⟨n, hn, hItem, hAll⟩ => by
    obtain ⟨n', hn', hSame, hSub⟩ := h id n hn
    have hThere : ∀ j ∈ n'.contents, (g'.node? j).isSome := by
      intro j hj
      have hLies : g'.Lies j id := by
        rw [Lies, g'.contents_item hn']
        exact hj
      exact mem_ids.1 (hg'.mem_ids_of_lies hLies).1
    obtain ⟨us, hus, hGrown⟩ := h.showsAll hg' contents n.contents n'.contents hSub hThere hAll
    exact ⟨.node item us, ⟨n', hn', hSame.trans hItem, hus⟩, rfl, hGrown⟩

/-- Items of a graph that grows show trees that have grown. -/
theorem Grows.showsAll (h : g.Grows g') (hg' : g'.Consistent) :
    ∀ (ts : List ItemTree) (ids ids' : List ItemId), ids.Sublist ids' →
      (∀ j ∈ ids', (g'.node? j).isSome) → g.ShowsAll ids ts →
      ∃ us, g'.ShowsAll ids' us ∧ ItemTree.GrownAll ts us
  | [], _, ids', _, hThere, _ => ⟨ids'.filterMap g'.tree?, hg'.filterMap_tree? hThere, trivial⟩
  | _ :: _, [], _, _, _, hAll => hAll.elim
  | t :: ts, id :: ids, ids', hSub, hThere, hAll => by
    -- The first of the old items stands somewhere in the new list, the others behind it.
    obtain ⟨front, back, rfl, hMem, hRest⟩ := List.cons_sublist_iff.1 hSub
    obtain ⟨before, between, rfl⟩ := List.append_of_mem hMem
    obtain ⟨u, hu, hFirst⟩ := h.shows hg' t id hAll.1
    obtain ⟨us, hus, hOthers⟩ := h.showsAll hg' ts ids (between ++ back)
      (hRest.trans (List.sublist_append_right between back))
      (fun j hj => hThere j (by simp_all)) hAll.2
    refine ⟨before.filterMap g'.tree? ++ u :: us, ?_, before.filterMap g'.tree?, u, us, rfl, hFirst,
      hOthers⟩
    rw [List.append_assoc, List.cons_append]
    exact showsAll_append (hg'.filterMap_tree? fun j hj => hThere j (by simp [hj])) ⟨hu, hus⟩

end

/-! ## §2. Putting an item into a holder. -/

/-- An insertion leaves the order of what was there. -/
theorem sublist_insertAt (index : Nat) (id : ItemId) (ids : List ItemId) :
    ids.Sublist (insertAt index id ids) := by
  rw [insertAt]
  conv_lhs => rw [← List.take_append_drop index ids]
  exact (List.Sublist.refl _).append (List.sublist_cons_self id _)

/-- **A graph grows when an item is put into a holder.** -/
theorem grows_insert {target : Holder} {index : Nat} {id : ItemId}
    (h : g.insert target index id = .ok g') : g.Grows g' := by
  obtain ⟨_, _, _, _, _, rfl⟩ := insert_eq_ok h
  intro j n hn
  have hNode := node?_relist (g := g) target (insertAt index id (g.contents target)) id j target
  rw [hn, Option.map_some] at hNode
  refine ⟨_, hNode, rfl, ?_⟩
  dsimp only
  split_ifs with hTarget
  · rw [hTarget, g.contents_item hn]
    exact sublist_insertAt index id n.contents
  · exact List.Sublist.refl _

end Graph

namespace World

/-- **No item becomes lighter when an item is put into a holder**, itself and what holds the holder
included. -/
theorem weight_le_of_insert {w : World} (hw : w.Sound) {target : Holder} {index : Nat}
    {id : ItemId} {g' : Graph} (h : w.graph.insert target index id = .ok g') (j : ItemId) :
    w.weight j ≤ { w with graph := g' }.weight j := by
  have hg' := hw.consistent.insert h
  unfold weight
  cases hTree : w.graph.tree? j with
  | none => exact Nat.zero_le _
  | some t =>
    obtain ⟨u, hu, hGrown⟩ := (Graph.grows_insert h).shows hg' t j
      (hw.consistent.tree?_eq_some_iff.1 hTree)
    rw [hg'.tree?_eq_some_iff.2 hu]
    show t.weight w.catalog ≤ u.weight w.catalog
    -- The weight is the sum, cut at the largest number; what grows stays as large.
    have hTotal := hGrown.total_le (c := w.catalog)
    rw [ItemTree.weight_eq_min, ItemTree.weight_eq_min]
    omega

end World

end Homestead
