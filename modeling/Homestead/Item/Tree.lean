/-
  Homestead.Item.Tree
  ───────────────────
  **AN ITEM WITH ALL THAT IT HOLDS.**

  A tree is an item and the trees of its contents, in order.  Trees are
  what items are weighed, copied, written and built as; where an item lies
  does not matter to any of that.
-/
import Homestead.Item.Basic

namespace Homestead

/-- An item and what it holds. -/
inductive ItemTree where
  /-- The item and its contents in order. -/
  | node (item : Item) (contents : List ItemTree)
  deriving Inhabited

namespace ItemTree

/-- The item itself. -/
def item : ItemTree → Item
  | node item _ => item

/-- What it holds. -/
def contents : ItemTree → List ItemTree
  | node _ contents => contents

/-! ## §1. Counting and copying. -/

mutual

/-- The number of items in a tree. -/
def size : ItemTree → Nat
  | node _ contents => 1 + sizes contents

/-- The number of items in a list of trees. -/
def sizes : List ItemTree → Nat
  | [] => 0
  | t :: ts => t.size + sizes ts

end

mutual

/-- The copy of a tree. -/
def copy : ItemTree → ItemTree
  | node item contents => node item.copy (copies contents)

/-- The copies of a list of trees. -/
def copies : List ItemTree → List ItemTree
  | [] => []
  | t :: ts => t.copy :: copies ts

end

/-! ## §2. Weight. -/

/-- The greatest weight. -/
def maxWeight : Nat := 4294967295

/-- The sum of two weights, stopping at the greatest. -/
def addWeight (a b : Nat) : Nat :=
  min maxWeight (a + b)

/-- The weight of one item of its kind: its own weight if it has one, else the one of its type. -/
def unitWeight (c : Catalog) (i : Item) : Nat :=
  if i.has .weight then (clampU32 (i.number .weight)).toNat
  else ((c.get? i.typeId).map (·.weight.toNat)).getD 0

/-- The weight of an item without its contents: a stack weighs as much as its items, and a stack
of none as much as one. -/
def ownWeight (c : Catalog) (i : Item) : Nat :=
  if ((c.get? i.typeId).map (·.stackable)).getD false then
    min maxWeight (unitWeight c i * max i.count.toNat 1)
  else unitWeight c i

mutual

/-- The weight of an item with its contents. -/
def weight (c : Catalog) : ItemTree → Nat
  | node item contents => addWeights c (ownWeight c item) contents

/-- The weight `w` and the weights of a list of trees, added one by one. -/
def addWeights (c : Catalog) (w : Nat) : List ItemTree → Nat
  | [] => w
  | t :: ts => addWeights c (addWeight w (weight c t)) ts

end

end ItemTree

end Homestead
