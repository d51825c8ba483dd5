/-
  Homestead.Proofs.Item.Trees
  ───────────────────────────
  **PROPERTIES AND RELATIONS OF TREES.**

  A property of an item and what it holds lifts to all items of a tree, a
  relation of items to trees of one shape.  The nesting of a tree is the
  number of containers on the longest way down.
-/
import Homestead.Item.Tree
import Mathlib.Tactic.SplitIfs

namespace Homestead

namespace ItemTree

/-! ## §1. Properties of all items. -/

mutual

/-- Every item of a tree, with what it holds, has a property. -/
def Every (P : Item → List ItemTree → Prop) : ItemTree → Prop
  | node item contents => P item contents ∧ EveryOf P contents

/-- Every item of a list of trees, with what it holds, has a property. -/
def EveryOf (P : Item → List ItemTree → Prop) : List ItemTree → Prop
  | [] => True
  | t :: ts => t.Every P ∧ EveryOf P ts

end

mutual

/-- What is true of every item of a tree may be weakened. -/
theorem Every.imp {P Q : Item → List ItemTree → Prop} (h : ∀ i cs, P i cs → Q i cs) :
    ∀ t : ItemTree, t.Every P → t.Every Q
  | node item contents, ht => ⟨h item contents ht.1, EveryOf.imp h contents ht.2⟩

/-- What is true of every item of some trees may be weakened. -/
theorem EveryOf.imp {P Q : Item → List ItemTree → Prop} (h : ∀ i cs, P i cs → Q i cs) :
    ∀ ts : List ItemTree, EveryOf P ts → EveryOf Q ts
  | [], _ => trivial
  | t :: ts, hts => ⟨Every.imp h t hts.1, EveryOf.imp h ts hts.2⟩

end

mutual

/-- Two things that are true of every item of a tree are true of it together. -/
theorem Every.and {P Q : Item → List ItemTree → Prop} : ∀ t : ItemTree, t.Every P → t.Every Q →
    t.Every fun i cs => P i cs ∧ Q i cs
  | node _ contents, hP, hQ => ⟨⟨hP.1, hQ.1⟩, EveryOf.and contents hP.2 hQ.2⟩

/-- Two things that are true of every item of some trees are true of them together. -/
theorem EveryOf.and {P Q : Item → List ItemTree → Prop} : ∀ ts : List ItemTree, EveryOf P ts →
    EveryOf Q ts → EveryOf (fun i cs => P i cs ∧ Q i cs) ts
  | [], _, _ => trivial
  | t :: ts, hP, hQ => ⟨Every.and t hP.1 hQ.1, EveryOf.and ts hP.2 hQ.2⟩

end

mutual

/-- Whether every item of a tree has a property. -/
instance Every.decidable (P : Item → List ItemTree → Prop) [∀ i cs, Decidable (P i cs)] :
    (t : ItemTree) → Decidable (t.Every P)
  | node item contents =>
    have := EveryOf.decidable P contents
    inferInstanceAs (Decidable (P item contents ∧ EveryOf P contents))

/-- Whether every item of a list of trees has a property. -/
instance EveryOf.decidable (P : Item → List ItemTree → Prop) [∀ i cs, Decidable (P i cs)] :
    (ts : List ItemTree) → Decidable (EveryOf P ts)
  | [] => isTrue trivial
  | t :: ts =>
    have := Every.decidable P t
    have := EveryOf.decidable P ts
    inferInstanceAs (Decidable (t.Every P ∧ EveryOf P ts))

end

/-- What is true of every item of some trees is true of every item of each. -/
theorem everyOf_iff {P : Item → List ItemTree → Prop} {ts : List ItemTree} :
    EveryOf P ts ↔ ∀ t ∈ ts, t.Every P := by
  induction ts with
  | nil => exact ⟨fun _ _ h => (List.not_mem_nil h).elim, fun _ => trivial⟩
  | cons t ts ih =>
    rw [EveryOf, ih]
    exact List.forall_mem_cons.symm

/-- Only containers hold items. -/
def Hollow (i : Item) (contents : List ItemTree) : Prop :=
  contents ≠ [] → i.isContainer

/-! ## §2. Trees of one shape. -/

mutual

/-- Two trees have one shape, and a relation holds between the items in one place. -/
def Related (R : Item → Item → Prop) : ItemTree → ItemTree → Prop
  | node i is, node j js => R i j ∧ RelatedAll R is js

/-- Two lists of trees are related place by place. -/
def RelatedAll (R : Item → Item → Prop) : List ItemTree → List ItemTree → Prop
  | [], [] => True
  | t :: ts, u :: us => t.Related R u ∧ RelatedAll R ts us
  | _, _ => False

end

mutual

/-- Relations of trees are composed item by item. -/
theorem Related.trans {R S T : Item → Item → Prop} (h : ∀ i j k, R i j → S j k → T i k) :
    ∀ t u v : ItemTree, t.Related R u → u.Related S v → t.Related T v
  | node i is, node j js, node k ks, htu, huv =>
    ⟨h i j k htu.1 huv.1, RelatedAll.trans h is js ks htu.2 huv.2⟩

/-- Relations of lists of trees are composed item by item. -/
theorem RelatedAll.trans {R S T : Item → Item → Prop} (h : ∀ i j k, R i j → S j k → T i k) :
    ∀ ts us vs : List ItemTree, RelatedAll R ts us → RelatedAll S us vs → RelatedAll T ts vs
  | [], [], [], _, _ => trivial
  | t :: ts, u :: us, v :: vs, htu, huv =>
    ⟨Related.trans h t u v htu.1 huv.1, RelatedAll.trans h ts us vs htu.2 huv.2⟩
  | [], [], _ :: _, _, huv => huv.elim
  | [], _ :: _, _, htu, _ => htu.elim
  | _ :: _, [], _, htu, _ => htu.elim
  | _ :: _, _ :: _, [], _, huv => huv.elim

end

mutual

/-- A property that the relation carries over is true of every item of the related tree. -/
theorem Related.every {R : Item → Item → Prop} {P Q : Item → Prop}
    (h : ∀ i j, R i j → P i → Q j) : ∀ t u : ItemTree, t.Related R u →
      (t.Every fun i _ => P i) → u.Every fun j _ => Q j
  | node i is, node j js, htu, ht => ⟨h i j htu.1 ht.1, RelatedAll.every h is js htu.2 ht.2⟩

/-- A property that the relation carries over is true of every item of the related trees. -/
theorem RelatedAll.every {R : Item → Item → Prop} {P Q : Item → Prop}
    (h : ∀ i j, R i j → P i → Q j) : ∀ ts us : List ItemTree, RelatedAll R ts us →
      EveryOf (fun i _ => P i) ts → EveryOf (fun j _ => Q j) us
  | [], [], _, _ => trivial
  | t :: ts, u :: us, htu, ht =>
    ⟨Related.every h t u htu.1 ht.1, RelatedAll.every h ts us htu.2 ht.2⟩
  | [], _ :: _, htu, _ => htu.elim
  | _ :: _, [], htu, _ => htu.elim

end

mutual

/-- What holds of the items of one tree may be used where a relation to another one is weakened. -/
theorem Related.imp {P : Item → List ItemTree → Prop} {R S : Item → Item → Prop}
    (h : ∀ i cs j, P i cs → R i j → S i j) : ∀ t u : ItemTree, t.Every P → t.Related R u →
      t.Related S u
  | node i is, node j js, ht, htu => ⟨h i is j ht.1 htu.1, RelatedAll.imp h is js ht.2 htu.2⟩

/-- A relation may be weakened with what is known of the items on its left. -/
theorem RelatedAll.imp {P : Item → List ItemTree → Prop} {R S : Item → Item → Prop}
    (h : ∀ i cs j, P i cs → R i j → S i j) : ∀ ts us : List ItemTree, EveryOf P ts →
      RelatedAll R ts us → RelatedAll S ts us
  | [], [], _, _ => trivial
  | t :: ts, u :: us, ht, htu => ⟨Related.imp h t u ht.1 htu.1, RelatedAll.imp h ts us ht.2 htu.2⟩
  | [], _ :: _, _, htu => htu.elim
  | _ :: _, [], _, htu => htu.elim

end

/-- There are as many related trees on either side. -/
theorem RelatedAll.length_eq {R : Item → Item → Prop} : ∀ {ts us : List ItemTree},
    RelatedAll R ts us → ts.length = us.length
  | [], [], _ => rfl
  | _ :: _, _ :: _, h => congrArg (· + 1) (RelatedAll.length_eq h.2)

/-- Related lists are related one behind the other. -/
theorem relatedAll_append {R : Item → Item → Prop} {ts us ts' us' : List ItemTree}
    (h : RelatedAll R ts us) (h' : RelatedAll R ts' us') :
    RelatedAll R (ts ++ ts') (us ++ us') := by
  induction ts generalizing us with
  | nil =>
    cases us with
    | nil => exact h'
    | cons u us => exact h.elim
  | cons t ts ih =>
    cases us with
    | nil => exact h.elim
    | cons u us => exact ⟨h.1, ih h.2⟩

/-! ## §3. Nesting. -/

mutual

/-- The most containers that lie in one another on a way down. -/
def nesting : ItemTree → Nat
  | node item contents => nestings contents + if item.isContainer then 1 else 0

/-- The greatest nesting in a list of trees. -/
def nestings : List ItemTree → Nat
  | [] => 0
  | t :: ts => max t.nesting (nestings ts)

end

/-- Trees are nested no deeper than a bound exactly if none of them is. -/
theorem nestings_le_iff {ts : List ItemTree} {n : Nat} :
    nestings ts ≤ n ↔ ∀ t ∈ ts, t.nesting ≤ n := by
  induction ts with
  | nil => exact ⟨fun _ _ h => (List.not_mem_nil h).elim, fun _ => Nat.zero_le n⟩
  | cons t ts ih =>
    rw [nestings, Nat.max_le, ih, List.forall_mem_cons]

end ItemTree

end Homestead
