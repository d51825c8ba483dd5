/-
  Homestead.Record.Build
  ──────────────────────
  **FROM A RECORD TO AN ITEM.**

  Building a record makes a new item of its type, makes the updates and
  builds the contents.  A record whose type cannot be used gives nothing,
  and nothing is built of what it holds.  What was made and what was let go
  is counted on the way, also when building fails later on.
-/
import Homestead.Record.Basic

namespace Homestead

/-- What became of records. -/
structure Tally where
  /-- Items made. -/
  created : Nat := 0
  /-- Items let go. -/
  discarded : Nat := 0
  deriving DecidableEq, Inhabited

namespace Tally

instance : Add Tally where
  add a b := ⟨a.created + b.created, a.discarded + b.discarded⟩

/-- So many items made. -/
def made (n : Nat) : Tally := ⟨n, 0⟩

/-- So many items let go. -/
def letGo (n : Nat) : Tally := ⟨0, n⟩

end Tally

namespace Record

/-! ## §1. Building trees. -/

/-- The new item that a record makes, without its contents. -/
def newItem? (c : Catalog) (r : Record) : Option Item :=
  if r.known then (Item.create? c r.typeId 0).map fun i => i.applyAll c r.updates else none

mutual

/-- Builds a record. -/
def build (c : Catalog) : Record → Except DecodeError (Option ItemTree) × Tally
  | mk typeId known updates children =>
    match newItem? c (mk typeId known updates none) with
    | none => (.ok none, .letGo (total (mk typeId known updates children)))
    | some item =>
      match children with
      | none => (.ok (some (.node item [])), .made 1)
      | some children =>
        -- The catalog may have changed between reading and building.
        if !item.isContainer then (.error (.mismatch typeId .holdsNothing), .made 1)
        else
          let (built, tally) := buildAll c children
          (built.map fun trees => some (.node item trees), .made 1 + tally)

/-- Builds records one after another, up to the first failure. -/
def buildAll (c : Catalog) : List Record → Except DecodeError (List ItemTree) × Tally
  | [] => (.ok [], {})
  | r :: rs =>
    match build c r with
    | (.error e, tally) => (.error e, tally)
    | (.ok tree, tally) =>
      let (trees, more) := buildAll c rs
      (trees.map (tree.toList ++ ·), tally + more)

end

/-! ## §2. Filling an item that is there. -/

/-- One item less is still to come to a container. -/
def countDown (g : Graph) (container : ItemId) : Graph :=
  g.update container fun i =>
    match i.variant.pending with
    | some n => { i with variant := i.variant.setPending (if n = 0 then 0 else n - 1) }
    | none => i

/-- Builds records one after another and adds the items to a container, up to the first failure. -/
def fillAll (c : Catalog) (container : ItemId) :
    List Record → Graph → Tally → Except DecodeError Unit × Tally × Graph
  | [], g, tally => (.ok (), tally, g)
  | r :: rs, g, tally =>
    match r.build c with
    | (.error e, more) => (.error e, tally + more, g)
    | (.ok none, more) => fillAll c container rs (countDown g container) (tally + more)
    | (.ok (some tree), more) =>
      let (id, g) := g.create tree
      match g.tryAdd (.item container) id with
      | (.error e, g) => (.error (.graph e), tally + more, g)
      | (.ok (), g) => fillAll c container rs (countDown g container) (tally + more)

/-- Adds the contents of a record to an item.  When building fails, what was added before stays,
and the item keeps count of what was still to come. -/
def fill (c : Catalog) (g : Graph) (container : ItemId) (r : Record) :
    Except DecodeError Unit × Tally × Graph :=
  match r.children with
  | none => (.ok (), {}, g)
  | some children =>
    if !g.isContainer container then (.error (.mismatch r.typeId .holdsNothing), {}, g)
    else
      let pending := UInt32.ofNat children.length
      let g := g.update container fun i => { i with variant := i.variant.setPending pending }
      fillAll c container children g {}

end Record

end Homestead
