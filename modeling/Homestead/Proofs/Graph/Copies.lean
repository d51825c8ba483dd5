/-
  Homestead.Proofs.Graph.Copies
  ─────────────────────────────
  **A COPY IS FAITHFUL, AND APART.**

  Copying an item makes a new item for every item in its tree, with the
  same type, count, attributes, depot number and destination, in the same
  place of a tree of the same shape.  Who sleeps in a bed and who may pass
  a door is not copied, so a copy is written as its original is where
  nobody sleeps.  The new tree lies nowhere and has no item in common with
  the old one, and so what is done to either does not show in the other.

  Main results:
    * `Item.Copied`, `related_copy` — what a copy takes over;
    * `encode_copy` — what a copy is written as;
    * `Cloned` — what copying an item has done;
    * `Reachable.clone_faithful_apart` — that it has, in reachable graphs.
-/
import Homestead.Proofs.Graph.Undisturbed
import Homestead.Record.Encode

namespace Homestead

open Record

/-! ## §1. Items. -/

/-- The number of a depot. -/
def Variant.depotNumber? : Variant → Option UInt16
  | depot _ number => some number
  | _ => none

/-- Where a teleport leads. -/
def Variant.destination? : Variant → Option Position
  | teleport destination => some destination
  | _ => none

/-- The second item is a copy of the first one. -/
structure Item.Copied (i j : Item) : Prop where
  /-- The type is the same. -/
  typeId : j.typeId = i.typeId
  /-- So is the count. -/
  count : j.count = i.count
  /-- So are the attributes. -/
  attributes : j.attributes = i.attributes
  /-- So is what the item can do. -/
  kind : j.variant.sameKind i.variant = true
  /-- So is the number of a depot. -/
  depot : j.variant.depotNumber? = i.variant.depotNumber?
  /-- So is where a teleport leads. -/
  destination : j.variant.destination? = i.variant.destination?
  /-- So is the house of a door or bed. -/
  house : j.variant.house? = i.variant.house?
  /-- Nobody sleeps in it. -/
  sleeper : j.variant.sleeper = 0
  /-- Nobody has been let in. -/
  list : j.variant.list? = none

/-- A copy of an item is one. -/
theorem Item.copied_copy (i : Item) : i.Copied i.copy where
  typeId := rfl
  count := rfl
  attributes := rfl
  kind := Variant.sameKind_copy i.variant
  -- What the variants keep of themselves; who sleeps there and who may pass is not copied.
  depot := by
    show i.variant.copy.depotNumber? = i.variant.depotNumber?
    cases i.variant <;> rfl
  destination := by
    show i.variant.copy.destination? = i.variant.destination?
    cases i.variant <;> rfl
  house := by
    show i.variant.copy.house? = i.variant.house?
    cases i.variant <;> rfl
  sleeper := by
    show i.variant.copy.sleeper = 0
    cases i.variant <;> rfl
  list := by
    show i.variant.copy.list? = none
    cases i.variant <;> rfl

/-- **A copy is written as the item is**, up to its contents, if nobody sleeps in the item. -/
theorem Item.headOctets_copy (c : Catalog) {i : Item} (h : i.variant.sleeper = 0) :
    i.copy.headOctets c = i.headOctets c := by
  have hVariant : i.copy.variantFields = i.variantFields := by
    have hCopy : i.copy.variant = i.variant.copy := rfl
    unfold variantFields
    rw [hCopy]
    cases hBed : i.variant with
    | bed house sleeper start =>
      -- The one field that a copy may lack is who sleeps in a bed.
      rw [hBed] at h
      have hNobody : sleeper = 0 := h
      rw [hNobody]
      rfl
    | _ => rfl
  have hFields : i.copy.fields c = i.fields c := by
    unfold fields
    rw [hVariant]
    rfl
  unfold headOctets
  rw [hFields]
  rfl

/-! ## §2. Trees. -/

namespace ItemTree

mutual

/-- **A copy has the shape of its original**, with a copy of every item in its place. -/
theorem related_copy : ∀ t : ItemTree, t.Related Item.Copied t.copy
  | node item contents => ⟨item.copied_copy, relatedAll_copies contents⟩

/-- Copies of trees are copies item by item. -/
theorem relatedAll_copies : ∀ ts : List ItemTree, RelatedAll Item.Copied ts (copies ts)
  | [] => trivial
  | t :: ts => ⟨related_copy t, relatedAll_copies ts⟩

end

mutual

/-- **A copy is written as its original is** if nobody sleeps in it. -/
theorem encode_copy (c : Catalog) : ∀ t : ItemTree, (t.Every fun i _ => i.variant.sleeper = 0) →
    t.copy.encode c = t.encode c
  | node item contents, h => by
    have hContainer : item.copy.isContainer = item.isContainer :=
      Graph.Variant.isContainer_copy item.variant
    have hLength : (copies contents).length = contents.length :=
      (relatedAll_copies contents).length_eq.symm
    rw [copy, encode, encode, Item.headOctets_copy c h.1, hContainer, hLength,
      encodeAll_copies c contents h.2]

/-- Copies of trees in which nobody sleeps are written alike. -/
theorem encodeAll_copies (c : Catalog) : ∀ ts : List ItemTree,
    EveryOf (fun i _ => i.variant.sleeper = 0) ts → encodeAll c (copies ts) = encodeAll c ts
  | [], _ => rfl
  | t :: ts, h => by
    rw [copies, encodeAll, encodeAll, encode_copy c t h.1, encodeAll_copies c ts h.2]

end

end ItemTree

namespace Graph

variable {g g' : Graph} {id copy : ItemId} {t u : ItemTree}

/-! ## §3. Copies in a graph. -/

/-- `g'` is `g` with the item `copy`, which shows the tree `u`, as a copy of the item `id`, which
shows the tree `t`. -/
structure Cloned (g g' : Graph) (id copy : ItemId) (t u : ItemTree) : Prop where
  /-- The tree of the original. -/
  original : g.Shows id t
  /-- The tree of the copy. -/
  shows : g'.Shows copy u
  /-- The trees have one shape, and items in the same place are copies. -/
  faithful : t.Related Item.Copied u
  /-- The copy lies nowhere. -/
  free : ∃ n, g'.node? copy = some n ∧ n.holder = none
  /-- It consists of items that were not there before. -/
  new : ∀ j, g'.Reaches j copy → g.next ≤ j ∧ g.node? j = none
  /-- What stands in a list is linked to its holder, and the other way round. -/
  links : ∀ j h, j ∈ g'.contents h ↔ g'.parent? j = some h
  /-- All items that were there are as they were, with their links and lists. -/
  old : ∀ j n, g.node? j = some n → g'.node? j = some n
  /-- The tiles are as they were. -/
  tiles : g'.tiles = g.tiles
  /-- The copy has no item in common with the original. -/
  apart : ∀ j, g'.Reaches j copy → ¬ g'.Reaches j id
  /-- What is done to items that are not in the copy does not show in the copy, which lies nowhere
  still. -/
  copyKept : ∀ g'', Sparing (g'.Reaches · copy) g' g'' → (g''.node? copy).isSome →
    g''.Shows copy u ∧ g''.Free copy
  /-- What is done to items that are not in the original does not show in the original. -/
  originalKept : ∀ g'', Sparing (g'.Reaches · id) g' g'' → (g''.node? id).isSome →
    g''.Shows id t
  /-- If nobody sleeps in a bed of the original, both are written in the same octets. -/
  encode : (t.Every fun i _ => i.variant.sleeper = 0) → ∀ c, u.encode c = t.encode c

/-- All that lies in the root of what was planted has been planted. -/
theorem Planted.new_of_reaches (h : Planted g g' none [copy] [u]) (hg : g.Consistent) {j : ItemId}
    (hReach : g'.Reaches j copy) : g.next ≤ j := by
  have hRegion := (confined_planted (T := fun _ => True) hg hg.region_fresh h).region
  exact hRegion.of_reaches hReach (h.root copy List.mem_cons_self).1

/-- **A clone is a faithful copy that is apart from its original.**  In a graph that is reached, an
item that is there has a tree, and copying it gives an item that lies nowhere and shows a tree of
the same shape, with new items of the same types, counts, attributes, depot numbers and
destinations.  Links and lists agree, and what was there is as it was.  Nothing that is done to the
items of one of the two trees, or anywhere outside of the other, shows in the other one.  With every
catalog they are written in the same octets, unless somebody sleeps in a bed of the original. -/
theorem Reachable.clone_faithful_apart (hg : g.Reachable) (hid : (g.node? id).isSome) :
    ∃ t u copy g', g.clone id = some (copy, g') ∧ Cloned g g' id copy t u := by
  have hConsistent := hg.consistent
  obtain ⟨t, copy, g', hShows, hClone, hPlanted⟩ := planted_clone hConsistent hid
  -- The graph with the copy is reached as well, so what holds of reached graphs holds of it.
  have hReached : g'.Reachable := by
    have hActed := hg.acted .empty (.clone id)
    rwa [show g.perform .empty (.clone id) = g' from
      congrArg (fun o => (o.map Prod.snd).getD g) hClone] at hActed
  have hOld := hPlanted.extends hConsistent
  have hOriginal : g'.Shows id t := Shows.of_extends hOld hShows
  -- All that lies in the copy has a number that was free before.
  have hNew : ∀ j, g'.Reaches j copy → g.next ≤ j :=
    fun j hReach => hPlanted.new_of_reaches hConsistent hReach
  refine ⟨t, t.copy, copy, g', hClone, ?_⟩
  constructor
  case original => exact hShows
  case shows => exact hPlanted.shows.1
  case faithful => exact t.related_copy
  case free => exact (hPlanted.root copy List.mem_cons_self).2
  case new => exact fun j hReach => ⟨hNew j hReach, hConsistent.node?_eq_none (hNew j hReach)⟩
  case links => exact fun _ _ => hReached.consistent.mem_contents_iff
  case old => exact hOld
  case tiles => exact hPlanted.tiles
  case apart =>
    intro j hCopy hReach
    -- What lies in the original lay in it before, and so has an old number.
    obtain ⟨n, hn⟩ := Option.isSome_iff_exists.1 hid
    have hNumber := hConsistent.numbered id n hn
    have hAlone : g.LeftAlone g' id :=
      fun k hBefore => hPlanted.old k (hConsistent.reaches_lt hBefore hNumber)
    have hLess := hConsistent.reaches_lt (hAlone.reaches hReach) hNumber
    exact absurd (hNew j hCopy) (Nat.not_le.2 hLess)
  case copyKept =>
    intro g'' hDone hRoot
    -- The copy lies in nothing, so actions on it touch nothing outside.
    obtain ⟨_, n, hn, hLink⟩ := hPlanted.root copy List.mem_cons_self
    have hFree : g'.Free copy := by
      intro m hm
      rw [← Option.some_inj.1 (hn.symm.trans hm)]
      exact hLink
    exact ⟨hDone.shows hReached hPlanted.shows.1 hRoot,
      hDone.free hReached hPlanted.shows.1.isSome_node? hFree⟩
  case originalKept => exact fun g'' hDone hRoot => hDone.shows hReached hOriginal hRoot
  case encode => exact fun hNobody c => t.encode_copy c hNobody

/-- A bag on a tile is copied with the bag that it holds. -/
theorem clone_faithful_apart_twoBags :
    ((empty.run bagCatalog twoBags).node? 0).isSome
      ∧ ∃ t u copy g', (empty.run bagCatalog twoBags).clone 0 = some (copy, g')
        ∧ Cloned (empty.run bagCatalog twoBags) g' 0 copy t u := by
  have hNode : ((empty.run bagCatalog twoBags).node? 0).isSome := by decide +kernel
  exact ⟨hNode, (Reachable.empty.run bagCatalog twoBags).clone_faithful_apart hNode⟩

end Graph

end Homestead
