/-
  Homestead.Proofs.Graph.Reachable
  ────────────────────────────────
  **GRAPHS THAT A PROGRAM CAN COME TO.**

  A graph is reached from the empty one by actions, by changes of items
  where they lie, by tiles that become part of a house or of none, and
  through worlds, whose items are also aged, loaded and saved.  Links and
  lists agree in every graph that is reached.

  Main results:
    * `Reachable` — the graphs that can be reached;
    * `Reachable.consistent` — what they have in common.
-/
import Homestead.Proofs.World.Reached

namespace Homestead

namespace Graph

/-- The graphs that can be reached. -/
inductive Reachable : Graph → Prop where
  /-- There is nothing yet. -/
  | empty : Reachable empty
  /-- Something is done to items. -/
  | acted {g : Graph} (hg : Reachable g) (c : Catalog) (a : Action) : Reachable (g.perform c a)
  /-- An item is changed where it lies, and stays what kind of item it is. -/
  | changed {g : Graph} (hg : Reachable g) (id : ItemId) (f : Item → Item)
    (hf : ∀ i, (f i).variant.sameKind i.variant = true) : Reachable (g.update id f)
  /-- A tile becomes part of a house, or of none. -/
  | housed {g : Graph} (hg : Reachable g) (p : Position) (house : Option UInt32) :
    Reachable (g.setTileHouse p house)
  /-- The graph is that of a world. -/
  | ofWorld {c : Catalog} {b : Blueprint} {w : World} (hw : World.Reached c b w) :
    Reachable w.graph

variable {g : Graph}

/-- **In every graph that is reached links and lists agree.** -/
theorem Reachable.consistent (hg : g.Reachable) : g.Consistent := by
  induction hg with
  | empty => exact consistent_empty
  | acted _ c a ih => exact ih.perform a
  | changed _ id f hf ih =>
    refine ih.update id f ?_
    intro n _ hHolds
    show (f n.item).variant.isContainer = true
    rw [Variant.isContainer_eq_of_sameKind (hf n.item)]
    exact hHolds
  | housed _ p house ih => exact ih.setTileHouse p house
  | ofWorld hw => exact hw.sound.consistent

/-- What actions lead to is reached. -/
theorem Reachable.run (hg : g.Reachable) (c : Catalog) (actions : List Action) :
    (g.run c actions).Reachable := by
  induction actions generalizing g with
  | nil => exact hg
  | cons a actions ih => exact ih (hg.acted c a)

end Graph

end Homestead
