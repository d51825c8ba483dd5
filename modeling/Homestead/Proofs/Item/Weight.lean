/-
  Homestead.Proofs.Item.Weight
  ────────────────────────────
  **THE WEIGHT OF A TREE IS A SUM, CUT OFF ONCE.**

  A stack is multiplied out and the items of a tree are added up one by
  one, and each of these steps stops at the greatest weight.  Weights are
  never negative, so a sum that has stopped would not have come back: it
  makes no difference where the steps stop, and the result is the exact sum
  over all items, cut off at the end.

  An exact sum knows of no order, and it does not become less when
  something is added.

  Main results:
    * `weight_eq_min`, `addWeights_min` — stopping early and stopping once;
    * `Reordered`, `Grown` — other orders, and more items;
    * `weight_exact` — the weight of a tree.
-/
import Homestead.Proofs.Item.Trees
import Homestead.Proofs.Record.Fields
import Mathlib.Algebra.GroupWithZero.Nat

namespace Homestead

namespace ItemTree

/-! ## §1. Exact weights. -/

/-- The weight of one item of its kind, as a number without bound: its own weight, cut to the range
of a weight, or else the one that the catalog gives its type. -/
def baseWeight (c : Catalog) (i : Item) : Nat :=
  if i.has .weight then (clamp 0 maxWeight (i.number .weight)).toNat
  else match c.get? i.typeId with
    | some t => t.weight.toNat
    | none => 0

/-- The weight of an item without its contents, as a number without bound. -/
def exactWeight (c : Catalog) (i : Item) : Nat :=
  match c.get? i.typeId with
  | some t => if t.stackable then baseWeight c i * max i.count.toNat 1 else baseWeight c i
  | none => baseWeight c i

mutual

/-- The item and all that lies in it. -/
def items : ItemTree → List Item
  | node item contents => item :: itemsOf contents

/-- All items of a list of trees. -/
def itemsOf : List ItemTree → List Item
  | [] => []
  | t :: ts => t.items ++ itemsOf ts

end

/-- The exact weight of a tree: the sum over its items. -/
def total (c : Catalog) (t : ItemTree) : Nat :=
  (t.items.map (exactWeight c)).sum

/-- The exact weight of a list of trees. -/
def totalOf (c : Catalog) (ts : List ItemTree) : Nat :=
  ((itemsOf ts).map (exactWeight c)).sum

variable {c : Catalog}

/-- The total of a tree is the weight of its root and the total of its contents. -/
theorem total_node (i : Item) (contents : List ItemTree) :
    (node i contents).total c = exactWeight c i + totalOf c contents := by
  rw [total, items, List.map_cons, List.sum_cons, totalOf]

theorem totalOf_nil : totalOf c [] = 0 := rfl

theorem totalOf_cons (t : ItemTree) (ts : List ItemTree) :
    totalOf c (t :: ts) = t.total c + totalOf c ts := by
  rw [totalOf, itemsOf, List.map_append, List.sum_append, total, totalOf]

/-- The total of two lists is the sum of their totals. -/
theorem totalOf_append (ts us : List ItemTree) :
    totalOf c (ts ++ us) = totalOf c ts + totalOf c us := by
  induction ts with
  | nil => rw [List.nil_append, totalOf_nil, Nat.zero_add]
  | cons t ts ih => rw [List.cons_append, totalOf_cons, totalOf_cons, ih, Nat.add_assoc]

/-! ## §2. Stopping at the greatest weight. -/

/-- The weight of one piece is the weight of the type. -/
theorem unitWeight_eq (c : Catalog) (i : Item) : unitWeight c i = baseWeight c i := by
  unfold unitWeight baseWeight
  split_ifs with hOwn
  · have hCut := toNat_clampU32 (i.number .weight)
    show _ = (clamp 0 4294967295 _).toNat
    omega
  · cases c.get? i.typeId <;> rfl

/-- No type is heavier than the largest weight. -/
theorem baseWeight_le (c : Catalog) (i : Item) : baseWeight c i ≤ maxWeight := by
  unfold baseWeight maxWeight
  split_ifs with hOwn
  · unfold clamp
    omega
  · split
    next t _ =>
      have := t.weight.toNat_lt
      omega
    next => exact Nat.zero_le _

/-- A stack is multiplied out exactly, and then cut off. -/
theorem ownWeight_eq_min (c : Catalog) (i : Item) :
    ownWeight c i = min maxWeight (exactWeight c i) := by
  have hBase := baseWeight_le c i
  unfold ownWeight exactWeight
  rw [unitWeight_eq]
  cases c.get? i.typeId with
  -- One item weighs no more than 32 bits can say, and nothing is cut off.
  | none => exact (Nat.min_eq_right hBase).symm
  | some t =>
    by_cases hStack : t.stackable
    · simp only [Option.map_some, Option.getD_some, if_pos hStack]
    · simp only [Option.map_some, Option.getD_some, if_neg hStack]
      exact (Nat.min_eq_right hBase).symm

/-- A sum that has stopped does not come back, so its parts may be cut off before. -/
theorem addWeight_min (a b : Nat) :
    addWeight (min maxWeight a) (min maxWeight b) = min maxWeight (a + b) := by
  unfold addWeight
  omega

mutual

/-- **The weight of a tree is its exact weight, cut off once.** -/
theorem weight_eq_min (c : Catalog) : ∀ t : ItemTree, t.weight c = min maxWeight (t.total c)
  | node i contents => by
    rw [weight, ownWeight_eq_min, addWeights_min c contents, total_node]

/-- Weights that are added with a cut at each step give the cut of their sum: once over the bound,
always over it. -/
theorem addWeights_min (c : Catalog) : ∀ (ts : List ItemTree) (w : Nat),
    addWeights c (min maxWeight w) ts = min maxWeight (w + totalOf c ts)
  | [], w => by rw [addWeights, totalOf_nil, Nat.add_zero]
  | t :: ts, w => by
    rw [addWeights, weight_eq_min c t, addWeight_min, addWeights_min c ts, totalOf_cons,
      Nat.add_assoc]

end

/-! ## §3. Another order. -/

/-- The trees have the same items with the same contents, but for the order of contents, at any
depth. -/
inductive Reordered : ItemTree → ItemTree → Prop where
  /-- What an item holds comes in another order. -/
  | contents (i : Item) {ts us : List ItemTree} (h : ts.Perm us) :
    Reordered (node i ts) (node i us)
  /-- One of the things that an item holds is reordered. -/
  | within (i : Item) (front back : List ItemTree) {t u : ItemTree} (h : Reordered t u) :
    Reordered (node i (front ++ t :: back)) (node i (front ++ u :: back))
  /-- Trees are reordered again. -/
  | trans {t u v : ItemTree} (h : Reordered t u) (h' : Reordered u v) : Reordered t v

/-- The total does not depend on the order. -/
theorem totalOf_perm {ts us : List ItemTree} (h : ts.Perm us) : totalOf c ts = totalOf c us := by
  induction h with
  | nil => rfl
  | cons t _ ih => rw [totalOf_cons, totalOf_cons, ih]
  | swap t u ts =>
    simp only [totalOf_cons]
    omega
  | trans _ _ ih ih' => exact ih.trans ih'

/-- A tree that is reordered at any depth has the same total. -/
theorem Reordered.total_eq {t u : ItemTree} (h : t.Reordered u) : u.total c = t.total c := by
  induction h with
  | contents i h => rw [total_node, total_node, totalOf_perm h]
  | within i front back _ ih =>
    rw [total_node, total_node, totalOf_append, totalOf_append, totalOf_cons, totalOf_cons, ih]
  | trans _ _ ih ih' => exact ih'.trans ih

/-! ## §4. More items. -/

mutual

/-- The second tree is the first one, with any trees added to the contents of its items, at any
depth. -/
def Grown : ItemTree → ItemTree → Prop
  | node i contents, u => u.item = i ∧ GrownAll contents u.contents

/-- The trees of the first list stand in order among those of the second, and have grown. -/
def GrownAll : List ItemTree → List ItemTree → Prop
  | [], _ => True
  | t :: ts, us => ∃ front u back, us = front ++ u :: back ∧ t.Grown u ∧ GrownAll ts back

end

mutual

/-- **A tree that has grown weighs no less.** -/
theorem Grown.total_le : ∀ {t u : ItemTree}, t.Grown u → t.total c ≤ u.total c
  | node i contents, node j more, h => by
    obtain ⟨hItem, hContents⟩ := h
    obtain rfl : j = i := hItem
    have hRest := GrownAll.total_le hContents
    rw [total_node, total_node]
    exact Nat.add_le_add_left hRest _

/-- More items weigh no less. -/
theorem GrownAll.total_le : ∀ {ts us : List ItemTree}, GrownAll ts us →
    totalOf c ts ≤ totalOf c us
  | [], us, _ => Nat.zero_le _
  | t :: ts, us, h => by
    obtain ⟨front, u, back, rfl, hFirst, hRest⟩ := h
    have hTree := Grown.total_le hFirst
    have hTrees := GrownAll.total_le hRest
    rw [totalOf_append, totalOf_cons, totalOf_cons]
    omega

end

/-- Trees that are put before others only add to them. -/
theorem GrownAll.append_left {ts us : List ItemTree} (more : List ItemTree) (h : GrownAll ts us) :
    GrownAll ts (more ++ us) := by
  cases ts with
  | nil => trivial
  | cons t ts =>
    obtain ⟨front, u, back, rfl, hFirst, hRest⟩ := h
    exact ⟨more ++ front, u, back, (List.append_assoc _ _ _).symm, hFirst, hRest⟩

mutual

/-- A tree has grown by nothing. -/
theorem Grown.refl : ∀ t : ItemTree, t.Grown t
  | node _ contents => ⟨rfl, GrownAll.refl contents⟩

/-- Trees have grown by nothing. -/
theorem GrownAll.refl : ∀ ts : List ItemTree, GrownAll ts ts
  | [] => trivial
  | t :: ts => ⟨[], t, ts, rfl, Grown.refl t, GrownAll.refl ts⟩

end

/-- Something is put in front of the last so many things that an item holds. -/
theorem grown_insert (i : Item) (front back : List ItemTree) (added : ItemTree) :
    (node i (front ++ back)).Grown (node i (front ++ added :: back)) := by
  refine ⟨rfl, ?_⟩
  show GrownAll (front ++ back) (front ++ added :: back)
  induction front with
  | nil => exact (GrownAll.refl back).append_left [added]
  | cons t front ih => exact ⟨[], t, front ++ added :: back, rfl, Grown.refl t, ih⟩

/-! ## §5. The weight of a tree. -/

/-- **The weight of a tree is the sum over the item and all that lies in it**, of base weights times
counts for what is stacked and base weights for the rest, and at most the greatest weight.  It is
the same in every order of the contents, and does not become less when anything is added anywhere
inside. -/
theorem weight_exact (c : Catalog) (t : ItemTree) :
    t.weight c = min maxWeight (t.items.map (exactWeight c)).sum
      ∧ (∀ u, t.Reordered u → u.weight c = t.weight c)
      ∧ ∀ u, t.Grown u → t.weight c ≤ u.weight c := by
  refine ⟨weight_eq_min c t, ?_, ?_⟩
  · intro u h
    rw [weight_eq_min, weight_eq_min, h.total_eq]
  · intro u h
    rw [weight_eq_min, weight_eq_min]
    have hTotal := h.total_le (c := c)
    omega

/-- A catalog of one type: sacks, which hold items. -/
def sackCatalog : Catalog where
  types := Catalog.empty.types.insert 1 { id := 1, group := .container, weight := 500 }
  keyed := Catalog.empty.keyed_insert { id := 1, group := .container, weight := 500 }

/-- Sacks, and lumps of lead that form stacks. -/
def leadCatalog : Catalog where
  types := sackCatalog.types.insert 2 { id := 2, stackable := true, weight := 2000000000 }
  keyed := sackCatalog.keyed_insert { id := 2, stackable := true, weight := 2000000000 }

/-- A sack. -/
def sack (contents : List ItemTree) : ItemTree :=
  node { typeId := 1, variant := .emptyContainer } contents

/-- So many lumps of lead. -/
def lead (count : UInt8) : ItemTree :=
  node { typeId := 2, count } []

/-- Two lumps and a sack in a sack weigh the same in either order, and no less with a third lump,
which is more than a weight can be. -/
theorem weight_exact_lead :
    (sack [lead 2, sack []]).weight leadCatalog = 4000001000
      ∧ (sack [lead 2, sack []]).Reordered (sack [sack [], lead 2])
      ∧ (sack [sack [], lead 2]).weight leadCatalog = 4000001000
      ∧ (sack [lead 2, sack []]).Grown (sack [lead 2, lead 1, sack []])
      ∧ (sack [lead 2, sack []]).weight leadCatalog
        ≤ (sack [lead 2, lead 1, sack []]).weight leadCatalog
      ∧ (sack [lead 2, lead 1, sack []]).weight leadCatalog = maxWeight := by
  have hReordered : (sack [lead 2, sack []]).Reordered (sack [sack [], lead 2]) :=
    .contents _ (.swap _ _ _)
  have hGrown : (sack [lead 2, sack []]).Grown (sack [lead 2, lead 1, sack []]) :=
    grown_insert _ [lead 2] [sack []] (lead 1)
  obtain ⟨hWeight, hOrder, hMore⟩ := weight_exact leadCatalog (sack [lead 2, sack []])
  have hSum : (sack [lead 2, sack []]).weight leadCatalog = 4000001000 :=
    hWeight.trans (by decide +kernel)
  exact ⟨hSum, hReordered, (hOrder _ hReordered).trans hSum, hGrown, hMore _ hGrown,
    by decide +kernel⟩

end ItemTree

end Homestead
