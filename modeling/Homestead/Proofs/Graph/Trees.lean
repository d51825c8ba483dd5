/-
  Homestead.Proofs.Graph.Trees
  ────────────────────────────
  **THE TREES THAT A GRAPH SHOWS.**

  An item shows a tree when its node has the item of the tree and what
  stands in its list shows the contents of the tree, in order.  An item
  shows one tree at most, and in a consistent graph exactly one: the walk
  inwards is not cut off.

  Main results:
    * `tree?_eq_some_iff` — the tree of an item is the tree that it shows;
    * `Shows.of_agree` — only what lies in an item counts for its tree.
-/
import Homestead.Proofs.Graph.Consistent
import Homestead.Proofs.Item.Trees

namespace Homestead

namespace Graph

/-! ## §1. Showing a tree. -/

mutual

/-- The item shows the tree. -/
def Shows (g : Graph) : ItemId → ItemTree → Prop
  | id, .node item contents =>
    ∃ n, g.node? id = some n ∧ n.item = item ∧ ShowsAll g n.contents contents

/-- The items show the trees, in order. -/
def ShowsAll (g : Graph) : List ItemId → List ItemTree → Prop
  | [], [] => True
  | id :: ids, t :: ts => Shows g id t ∧ ShowsAll g ids ts
  | _, _ => False

end

variable {g g' : Graph}

/-- There are as many items as trees that they show. -/
theorem ShowsAll.length_eq {ids : List ItemId} {ts : List ItemTree} (h : g.ShowsAll ids ts) :
    ids.length = ts.length := by
  induction ts generalizing ids with
  | nil =>
    cases ids with
    | nil => rfl
    | cons id ids => exact h.elim
  | cons t ts ih =>
    cases ids with
    | nil => exact h.elim
    | cons id ids => rw [List.length_cons, List.length_cons, ih h.2]

/-- Items show trees one list behind the other. -/
theorem showsAll_append {ids ids' : List ItemId} {ts ts' : List ItemTree}
    (h : g.ShowsAll ids ts) (h' : g.ShowsAll ids' ts') : g.ShowsAll (ids ++ ids') (ts ++ ts') := by
  induction ts generalizing ids with
  | nil =>
    cases ids with
    | nil => exact h'
    | cons id ids => exact h.elim
  | cons t ts ih =>
    cases ids with
    | nil => exact h.elim
    | cons id ids => exact ⟨h.1, ih h.2⟩

/-- Each of the items shows one of the trees. -/
theorem ShowsAll.exists_of_mem {ids : List ItemId} {ts : List ItemTree} (h : g.ShowsAll ids ts)
    {id : ItemId} (hid : id ∈ ids) : ∃ t ∈ ts, g.Shows id t := by
  induction ts generalizing ids with
  | nil =>
    cases ids with
    | nil => cases hid
    | cons j ids => exact h.elim
  | cons t ts ih =>
    cases ids with
    | nil => cases hid
    | cons j ids =>
      rcases List.mem_cons.1 hid with rfl | hRest
      · exact ⟨t, List.mem_cons_self, h.1⟩
      · obtain ⟨u, hu, hShows⟩ := ih h.2 hRest
        exact ⟨u, List.mem_cons_of_mem t hu, hShows⟩

mutual

/-- An item shows one tree, by induction over it. -/
theorem Shows.unique : ∀ (t t' : ItemTree) (id : ItemId), g.Shows id t → g.Shows id t' → t = t'
  | .node i cs, .node i' cs', id, ⟨n, hn, hItem, hAll⟩, ⟨n', hn', hItem', hAll'⟩ => by
    obtain rfl : n = n' := Option.some_inj.1 (hn.symm.trans hn')
    rw [← hItem, ← hItem', ShowsAll.unique cs cs' n.contents hAll hAll']

/-- Items show one list of trees. -/
theorem ShowsAll.unique : ∀ (ts ts' : List ItemTree) (ids : List ItemId),
    g.ShowsAll ids ts → g.ShowsAll ids ts' → ts = ts'
  | [], [], _, _, _ => rfl
  | [], _ :: _, [], _, h' => h'.elim
  | [], _ :: _, _ :: _, h, _ => h.elim
  | _ :: _, [], [], h, _ => h.elim
  | _ :: _, [], _ :: _, _, h' => h'.elim
  | _ :: _, _ :: _, [], h, _ => h.elim
  | t :: ts, t' :: ts', id :: ids, h, h' => by
    rw [Shows.unique t t' id h.1 h'.1, ShowsAll.unique ts ts' ids h.2 h'.2]

end

/-! ## §2. What counts for a tree. -/

/-- Two nodes with the same item and the same list. -/
def SameNode (n n' : Node) : Prop :=
  n.item = n'.item ∧ n.contents = n'.contents

mutual

/-- **Only what lies in an item counts for its tree.** -/
theorem Shows.of_agree : ∀ (t : ItemTree) (id : ItemId),
    (∀ j, Relation.ReflTransGen g.Lies j id → ∀ n, g.node? j = some n →
      ∃ n', g'.node? j = some n' ∧ SameNode n n') →
    g.Shows id t → g'.Shows id t
  | .node i cs, id, hAgree, ⟨n, hn, hItem, hAll⟩ => by
    obtain ⟨n', hn', hSame, hList⟩ := hAgree id .refl n hn
    refine ⟨n', hn', hSame.symm.trans hItem, ?_⟩
    rw [← hList]
    refine ShowsAll.of_agree cs n.contents ?_ hAll
    intro child hChild j hj
    refine hAgree j (hj.tail ?_)
    rw [Lies, g.contents_item hn]
    exact hChild

/-- Items show the same trees in a graph that agrees on all that lies in them. -/
theorem ShowsAll.of_agree : ∀ (ts : List ItemTree) (ids : List ItemId),
    (∀ id ∈ ids, ∀ j, Relation.ReflTransGen g.Lies j id → ∀ n, g.node? j = some n →
      ∃ n', g'.node? j = some n' ∧ SameNode n n') →
    g.ShowsAll ids ts → g'.ShowsAll ids ts
  | [], [], _, _ => trivial
  | [], _ :: _, _, h => h.elim
  | _ :: _, [], _, h => h.elim
  | t :: ts, id :: ids, hAgree, h =>
    ⟨Shows.of_agree t id (hAgree id List.mem_cons_self) h.1,
      ShowsAll.of_agree ts ids (fun j hj => hAgree j (List.mem_cons_of_mem id hj)) h.2⟩

end

/-- New nodes do not count for the trees of old ones. -/
theorem ShowsAll.of_extends {ids : List ItemId} {ts : List ItemTree}
    (hOld : ∀ j n, g.node? j = some n → g'.node? j = some n) (h : g.ShowsAll ids ts) :
    g'.ShowsAll ids ts :=
  ShowsAll.of_agree ts ids (fun _ _ j _ n hn => ⟨n, hOld j n hn, rfl, rfl⟩) h

/-- An item shows the same tree in a graph that has more items. -/
theorem Shows.of_extends {id : ItemId} {t : ItemTree}
    (hOld : ∀ j n, g.node? j = some n → g'.node? j = some n) (h : g.Shows id t) :
    g'.Shows id t :=
  Shows.of_agree t id (fun j _ n hn => ⟨n, hOld j n hn, rfl, rfl⟩) h

/-! ## §3. The walk inwards. -/

/-- Trees come of a list of items when one comes of each. -/
theorem mapM_eq_some_iff {ids : List ItemId} {ts : List ItemTree}
    (f : ItemId → Option ItemTree) (hf : ∀ id t, f id = some t → g.Shows id t)
    (h : ids.mapM f = some ts) : g.ShowsAll ids ts := by
  induction ids generalizing ts with
  | nil =>
    rw [List.mapM_nil] at h
    cases h
    trivial
  | cons id ids ih =>
    rw [List.mapM_cons] at h
    obtain ⟨t, ht, h⟩ := Option.bind_eq_some_iff.1 h
    obtain ⟨us, hus, h⟩ := Option.bind_eq_some_iff.1 h
    cases h
    exact ⟨hf id t ht, ih hus⟩

/-- The walk gives the tree that is shown. -/
theorem shows_of_treeWithin {levels : Nat} {id : ItemId} {t : ItemTree}
    (h : g.treeWithin levels id = some t) : g.Shows id t := by
  induction levels generalizing id t with
  | zero => cases h
  | succ levels ih =>
    rw [treeWithin] at h
    cases hn : g.node? id with
    | none =>
      rw [hn] at h
      cases h
    | some n =>
      rw [hn] at h
      -- The walk has shown the contents one level further down.
      obtain ⟨ts, hts, rfl⟩ := Option.map_eq_some_iff.1 h
      exact ⟨n, hn, rfl, mapM_eq_some_iff _ (fun _ _ => ih) hts⟩

/-- The walk is not cut off below an item of less height than there are levels. -/
theorem Consistent.treeWithin_isSome (hg : g.Consistent) {height : ItemId → Nat}
    (hHeight : ∀ inner outer, g.Lies inner outer → height inner < height outer) (levels : Nat)
    {id : ItemId} (hid : (g.node? id).isSome) (hLevels : height id < levels) :
    ∃ t, g.treeWithin levels id = some t := by
  induction levels generalizing id with
  | zero => cases hLevels
  | succ levels ih =>
    obtain ⟨n, hn⟩ := Option.isSome_iff_exists.1 hid
    -- All that it holds is lower than it, and so can be read in one level less.
    have hAll : ∀ ids : List ItemId, (∀ j ∈ ids, j ∈ n.contents) →
        ∃ ts, ids.mapM (g.treeWithin levels) = some ts := by
      intro ids hSub
      induction ids with
      | nil => exact ⟨[], rfl⟩
      | cons j ids ihIds =>
        obtain ⟨hj, hRest⟩ := List.forall_mem_cons.1 hSub
        have hLies : g.Lies j id := by
          rw [Lies, g.contents_item hn]
          exact hj
        have hLess := hHeight j id hLies
        obtain ⟨t, ht⟩ := ih (mem_ids.1 (hg.mem_ids_of_lies hLies).1) (by omega)
        obtain ⟨ts, hts⟩ := ihIds hRest
        refine ⟨t :: ts, ?_⟩
        rw [List.mapM_cons, ht, hts]
        rfl
    obtain ⟨ts, hts⟩ := hAll n.contents fun _ h => h
    refine ⟨.node n.item ts, ?_⟩
    rw [treeWithin, hn]
    show Option.map _ (n.contents.mapM (g.treeWithin levels)) = _
    rw [hts]
    rfl

/-- **In a consistent graph every item has a tree.** -/
theorem Consistent.tree?_isSome (hg : g.Consistent) {id : ItemId} (hid : (g.node? id).isSome) :
    ∃ t, g.tree? id = some t := by
  obtain ⟨height, hHeight, hSize⟩ := hg.exists_height
  exact hg.treeWithin_isSome hHeight g.size hid (hSize id hid)

/-- What shows a tree is there. -/
theorem Shows.isSome_node? {id : ItemId} {t : ItemTree} (h : g.Shows id t) :
    (g.node? id).isSome := by
  cases t with
  | node i cs =>
    obtain ⟨n, hn, _⟩ := h
    rw [hn]
    rfl

/-- **The tree of an item is the tree that it shows.** -/
theorem Consistent.tree?_eq_some_iff (hg : g.Consistent) {id : ItemId} {t : ItemTree} :
    g.tree? id = some t ↔ g.Shows id t := by
  constructor
  · exact shows_of_treeWithin
  · intro h
    obtain ⟨t', ht'⟩ := hg.tree?_isSome h.isSome_node?
    rw [ht', Shows.unique t' t id (shows_of_treeWithin ht') h]

/-- Items that exist have trees, in order. -/
theorem Consistent.filterMap_tree? (hg : g.Consistent) {ids : List ItemId}
    (h : ∀ id ∈ ids, (g.node? id).isSome) : g.ShowsAll ids (ids.filterMap g.tree?) := by
  induction ids with
  | nil => trivial
  | cons id ids ih =>
    obtain ⟨hid, hRest⟩ := List.forall_mem_cons.1 h
    obtain ⟨t, ht⟩ := hg.tree?_isSome hid
    rw [List.filterMap_cons, ht]
    exact ⟨hg.tree?_eq_some_iff.1 ht, ih hRest⟩

/-- The trees that are read off are those that are shown. -/
theorem Consistent.filterMap_tree?_eq (hg : g.Consistent) {ids : List ItemId}
    {ts : List ItemTree} (h : g.ShowsAll ids ts) : ids.filterMap g.tree? = ts := by
  induction ts generalizing ids with
  | nil =>
    cases ids with
    | nil => rfl
    | cons id ids => exact h.elim
  | cons t ts ih =>
    cases ids with
    | nil => exact h.elim
    | cons id ids => rw [List.filterMap_cons, hg.tree?_eq_some_iff.2 h.1, ih h.2]

/-! ## §4. Trees of consistent graphs. -/

mutual

/-- The trees of a consistent graph have contents in containers only. -/
theorem Consistent.hollow_of_shows (hg : g.Consistent) :
    ∀ (t : ItemTree) (id : ItemId), g.Shows id t → t.Every ItemTree.Hollow
  | .node i cs, id, ⟨n, hn, hItem, hAll⟩ => by
    refine ⟨?_, hg.hollow_of_showsAll cs n.contents hAll⟩
    intro hNonempty
    rw [← hItem]
    refine hg.holds id n hn ?_
    intro hNil
    have hLength := hAll.length_eq
    rw [hNil] at hLength
    exact hNonempty (List.length_eq_zero_iff.1 hLength.symm)

/-- What is shown holds contents only where its type does. -/
theorem Consistent.hollow_of_showsAll (hg : g.Consistent) :
    ∀ (ts : List ItemTree) (ids : List ItemId), g.ShowsAll ids ts →
      ItemTree.EveryOf ItemTree.Hollow ts
  | [], _, _ => trivial
  | _ :: _, [], h => h.elim
  | t :: ts, id :: ids, h => ⟨hg.hollow_of_shows t id h.1, hg.hollow_of_showsAll ts ids h.2⟩

end

mutual

/-- What holds of all items of a graph holds of all items of its trees. -/
theorem Shows.every {P : Item → Prop} (hP : ∀ id n, g.node? id = some n → P n.item) :
    ∀ (t : ItemTree) (id : ItemId), g.Shows id t → t.Every fun i _ => P i
  | .node _ cs, id, ⟨n, hn, hItem, hAll⟩ =>
    ⟨hItem ▸ hP id n hn, ShowsAll.every hP cs n.contents hAll⟩

/-- What is true of all items is true throughout the trees that are shown. -/
theorem ShowsAll.every {P : Item → Prop} (hP : ∀ id n, g.node? id = some n → P n.item) :
    ∀ (ts : List ItemTree) (ids : List ItemId), g.ShowsAll ids ts →
      ItemTree.EveryOf (fun i _ => P i) ts
  | [], _, _ => trivial
  | _ :: _, [], h => h.elim
  | t :: ts, id :: ids, h => ⟨Shows.every hP t id h.1, ShowsAll.every hP ts ids h.2⟩

end

end Graph

end Homestead
