/-
  Homestead.Proofs.Blueprint.Made
  ───────────────────────────────
  **WHAT IS MADE OF THE ENTRIES OF A BLUEPRINT.**

  An item is made of an entry if its type can be used.  What it holds is
  made of the entries in it, in order, without those whose types cannot be
  used.  On a tile of a house what moves is left out afterwards.

  Main results:
    * `ItemEntry.Makes` — the trees that are made of an entry;
    * `yields_build_gives` — building an entry gives such a tree, or none
      if its type cannot be used.
-/
import Homestead.Proofs.Blueprint.Drawn

namespace Homestead

open Drafting

/-! ## §1. Trees of entries. -/

/-- Whether an item can be made of what is drawn. -/
def ItemSketch.isConstructible (c : Catalog) (s : ItemSketch) : Bool :=
  (Item.create? c s.typeId s.count).isSome

mutual

/-- The tree is made of the entry. -/
inductive ItemEntry.Makes (c : Catalog) : ItemEntry → ItemTree → Prop
  /-- A new item of its type with all that is drawn of it, and what is made of its contents. -/
  | mk {sketch : ItemSketch} {contents : List ItemEntry} {new item : Item} {trees : List ItemTree}
    (hNew : Item.create? c sketch.typeId sketch.count = some new)
    (hItem : sketch.finish new = .ok item) (hInside : ItemEntry.MakesAll c contents trees) :
    ItemEntry.Makes c (.mk sketch contents) (.node item trees)

/-- The trees are made of the entries, in order. -/
inductive ItemEntry.MakesAll (c : Catalog) : List ItemEntry → List ItemTree → Prop
  /-- There is nothing to be made. -/
  | nil : ItemEntry.MakesAll c [] []
  /-- An entry is passed over, because no item can be made of it. -/
  | pass {e : ItemEntry} {es : List ItemEntry} {ts : List ItemTree}
    (hNot : e.sketch.isConstructible c = false) (hRest : ItemEntry.MakesAll c es ts) :
    ItemEntry.MakesAll c (e :: es) ts
  /-- One tree comes of one entry. -/
  | cons {e : ItemEntry} {es : List ItemEntry} {t : ItemTree} {ts : List ItemTree}
    (hFirst : ItemEntry.Makes c e t) (hRest : ItemEntry.MakesAll c es ts) :
    ItemEntry.MakesAll c (e :: es) (t :: ts)

end

namespace ItemEntry

/-- Whether the catalog says of the type of an entry that such items move. -/
def isMoveable (c : Catalog) (e : ItemEntry) : Bool :=
  ((c.get? e.sketch.typeId).map (·.moveable)).getD false

/-- Whether an item is made of an entry and left out because it would lie on the tile of a house,
and moves. -/
def isDropped (c : Catalog) (house : Option UInt32) (e : ItemEntry) : Bool :=
  house.isSome && (e.sketch.isConstructible c && e.isMoveable c)

/-- Whether an item is made of an entry and put on its tile. -/
def isPlaced (c : Catalog) (house : Option UInt32) (e : ItemEntry) : Bool :=
  e.sketch.isConstructible c && !(house.isSome && e.isMoveable c)

/-- What building an entry gives: a tree that is made of it, or none if none can be made. -/
def Gives (c : Catalog) (e : ItemEntry) : Option ItemTree → Prop
  | none => e.sketch.isConstructible c = false
  | some t => e.Makes c t

variable {c : Catalog} {e : ItemEntry} {t : ItemTree}

/-- An entry that makes a tree can be constructed. -/
theorem Makes.isConstructible (h : e.Makes c t) : e.sketch.isConstructible c = true := by
  cases h with
  | mk hNew _ _ => exact Option.isSome_of_eq_some hNew

/-- The item of an entry is of the type that is drawn. -/
theorem Makes.typeId_eq (h : e.Makes c t) : t.item.typeId = e.sketch.typeId := by
  cases h with
  | mk hNew hItem _ =>
    obtain ⟨type, hType, rfl⟩ := Option.map_eq_some_iff.1 hNew
    rw [ItemTree.item, (Item.sameBody_finish hItem).typeId, Item.typeId_ofType,
      Catalog.id_of_get? (Catalog.get?_of_usable? hType)]
    rfl

/-- Whether a tree moves, the entry says. -/
theorem Makes.isMoveable_eq (h : e.Makes c t) {w : World} (hw : w.catalog = c) :
    w.isMoveable t = e.isMoveable c := by
  rw [World.isMoveable, ItemEntry.isMoveable, h.typeId_eq, hw]

end ItemEntry

/-! ## §2. Building makes them. -/

mutual

/-- **Building an entry** gives a tree that is made of it, or none if none can be made. -/
theorem yields_build_gives (c : Catalog) : ∀ e : ItemEntry, Yields (e.build c) (e.Gives c)
  | .mk sketch contents => by
    rw [ItemEntry.build]
    cases hNew : Item.create? c sketch.typeId sketch.count with
    | none =>
      -- The type is counted and noted as one that cannot be used, and there is no tree.
      refine yields_bind yields_any fun _ _ => yields_bind yields_any fun _ _ => ?_
      refine yields_pure ?_
      show (Item.create? c sketch.typeId sketch.count).isSome = false
      rw [hNew]
      rfl
    | some new =>
      refine yields_bind (P := fun item => sketch.finish new = .ok item)
        (yields_ofExcept fun _ h => h) ?_
      intro item hItem
      refine yields_bind yields_any fun _ _ => ?_
      refine yields_bind (yields_buildContents_makes c item contents) ?_
      exact fun trees hInside => yields_pure (.mk hNew hItem hInside)

/-- Building contents yields what the entries make, by induction over them. -/
theorem yields_buildContents_makes (c : Catalog) (holder : Item) : ∀ es : List ItemEntry,
    Yields (ItemEntry.buildContents c holder es) (ItemEntry.MakesAll c es)
  | [] => by
    rw [ItemEntry.buildContents]
    exact yields_pure .nil
  | e :: es => by
    rw [ItemEntry.buildContents]
    refine yields_bind (yields_build_gives c e) ?_
    intro o hGives
    cases o with
    | none => exact (yields_buildContents_makes c holder es).imp fun _ hRest => .pass hGives hRest
    | some tree =>
      dsimp only
      -- In a holder that is not a container nothing can be built.
      split_ifs
      · exact yields_bind (P := fun _ => False) (yields_throw _) fun _ h => h.elim
      · refine yields_bind (yields_buildContents_makes c holder es) ?_
        exact fun trees hRest => yields_pure (.cons hGives hRest)

end

end Homestead
