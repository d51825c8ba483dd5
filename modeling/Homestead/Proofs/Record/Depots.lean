/-
  Homestead.Proofs.Record.Depots
  ──────────────────────────────
  **WHAT IS WRITTEN OF WHAT A RECORD RESTORES.**

  Of what an item can do, a record restores four things: the number of a
  depot, the number of a door, who sleeps in a bed and since when, and where
  a teleport leads.  For each of them there is a field that is read and an
  update that is made.  All but one are written as well.  Nothing is written
  of the number of a depot, so a locker that was given one by its record has
  none once it has been stored and read again.

  Main results:
    * `depotNumber_of_build` — a locker has the number that its record
      names last;
    * `restorable_rebuilt` — what comes back of one item;
    * `only_depot_numbers_lost` — what comes back of all items of a tree.
-/
import Homestead.Proofs.Record.NormalForm

open Homestead.Stream

namespace Homestead

open Record

/-! ## §1. What a record restores. -/

/-- What a record can say about what an item can do. -/
inductive Restorable where
  /-- Nothing. -/
  | nothing
  /-- The number of a depot. -/
  | depot (number : UInt16)
  /-- The number of a door. -/
  | door (number : UInt8)
  /-- Who sleeps in a bed and since when, if somebody does. -/
  | bed (asleep : Option (UInt32 × UInt32))
  /-- Where a teleport leads. -/
  | teleport (destination : Position)
  deriving DecidableEq

/-- What is written of it. -/
def Restorable.written : Restorable → Restorable
  | depot _ => depot 0
  | s => s

/-- Whether it is a depot with a number. -/
def Restorable.isNumberedDepot : Restorable → Bool
  | depot number => number != 0
  | _ => false

/-- What is restored is what was written, but for the number of a depot. -/
theorem Restorable.written_eq_self {s : Restorable} :
    s.written = s ↔ s.isNumberedDepot = false := by
  cases s with
  | depot number =>
    rw [written, isNumberedDepot, bne_eq_false_iff_eq, depot.injEq]
    exact eq_comm
  | _ => exact iff_of_true rfl rfl

/-- What a record could say about the item as it is. -/
def Item.restorable (i : Item) : Restorable :=
  match i.variant with
  | .depot _ number => .depot number
  | .door _ _ => .door i.doorId
  | .bed _ sleeper start => .bed (if sleeper = 0 then none else some (sleeper, start))
  | .teleport destination => .teleport destination
  | _ => .nothing

/-- The number of a depot that the update sets. -/
def Record.Update.depotNumber? : Update → Option UInt16
  | .depotId n => some n
  | _ => none

/-- The number of a depot that the record names last, 0 for none. -/
def Record.depotNumber (r : Record) : UInt16 :=
  (r.updates.reverse.findSome? Update.depotNumber?).getD 0

/-! ## §2. From a record to a locker. -/

/-- Of the updates to a locker the last one that has a number gives it its number. -/
theorem Item.depot_applyAll {c : Catalog} {i : Item} {pending : UInt32} {number : UInt16}
    (us : List Update) (h : i.variant = .depot pending number) :
    (i.applyAll c us).variant
      = .depot pending ((us.reverse.findSome? Update.depotNumber?).getD number) := by
  induction us generalizing i number with
  | nil => exact h
  | cons u us ih =>
    have hStep : (i.apply c u).variant = .depot pending (u.depotNumber?.getD number) := by
      rw [variant_apply, h]
      cases u <;> rfl
    -- The last number counts, so a later one goes before that of the first update.
    rw [applyAll_cons, ih hStep, List.reverse_cons, List.findSome?_append]
    cases us.reverse.findSome? Update.depotNumber? with
    | none => cases hNumber : u.depotNumber? <;> simp [hNumber]
    | some last => rfl

/-- An item that restores as a depot is one. -/
theorem Item.variant_of_restorable {i : Item} {number : UInt16}
    (h : i.restorable = .depot number) : ∃ pending, i.variant = .depot pending number := by
  unfold restorable at h
  cases hVariant : i.variant with
  | depot pending number' =>
    rw [hVariant] at h
    cases h
    exact ⟨pending, rfl⟩
  | _ =>
    rw [hVariant] at h
    cases h

namespace Record

variable {c : Catalog}

/-- **A locker has the number that its record names last.** -/
theorem depotNumber_of_build {r : Record} {t : ItemTree} {number : UInt16}
    (hBuilt : (r.build c).1 = .ok (some t)) (hDepot : t.item.restorable = .depot number) :
    r.depotNumber = number := by
  obtain ⟨id, known, us, children⟩ := r
  obtain ⟨item, trees, hNew, rfl, _⟩ := build_eq_ok hBuilt
  obtain ⟨type, _, rfl⟩ := newItem?_eq_some hNew
  obtain ⟨pending, hLocker⟩ := Item.variant_of_restorable hDepot
  have hVariant : ((Item.ofType type 0).applyAll c us).variant = .depot pending number := hLocker
  -- The type gives lockers, since no update makes anything else a locker.
  have hKind := Item.sameKind_variant_applyAll c (Item.ofType type 0) us
  have hFresh : (Item.ofType type 0).variant = .depot 0 0 := by
    rw [Item.variant_ofType] at hKind ⊢
    rw [ItemType.variant, Variant.ofGroup_eq_fresh type.group hKind, hVariant]
    rfl
  have hLast := Item.depot_applyAll (c := c) us hFresh
  rw [hVariant] at hLast
  exact (Variant.depot.inj hLast).2.symm

/-- **What is built from a record can be stored**, if the contents of each container can be
counted. -/
theorem storable_of_build {r : Record} {t : ItemTree} (hBuilt : (r.build c).1 = .ok (some t))
    (hCounted : t.Every fun _ contents => contents.length < 4294967296) :
    t.Every (Item.Storable c) := by
  have hTyped := every_of_build (fun _ _ h => usable_newItem? h) r t hBuilt
  have hHollow := hollow_of_build r t hBuilt
  refine ItemTree.Every.imp ?_ t (hTyped.and t (hHollow.and t hCounted))
  rintro i contents ⟨hType, hHolds, hLength⟩
  exact ⟨hType, fun hNot => of_not_not fun hSome => hNot (hHolds hSome), fun _ => hLength⟩

end Record

/-! ## §3. What comes back. -/

/-- **The number of a depot does not come back, and all else does.** -/
theorem Item.restorable_rebuilt {c : Catalog} {t : ItemType} {i : Item}
    (hKind : i.variant.sameKind t.variant = true) :
    (i.rebuilt c t).restorable = i.restorable.written := by
  have hVariant : (i.rebuilt c t).variant = i.variant.stored := variant_rebuilt hKind
  unfold restorable
  rw [hVariant]
  -- Doors have their number among the attributes; only awake beds lose when they were slept in.
  cases hi : i.variant with
  | door house list =>
    have hDoor : i.isDoor = true := by rw [isDoor, hi]; rfl
    have hNumber : (i.rebuilt c t).doorId = i.doorId := by
      rw [doorId, doorId_rebuilt hKind, if_pos hDoor, clampU8_clamp]
      rfl
    exact congrArg Restorable.door hNumber
  | bed house sleeper start =>
    by_cases hNobody : sleeper = 0
    · subst hNobody
      rfl
    · rw [Variant.stored, if_neg hNobody]
      rfl
  | _ => rfl

namespace ItemTree

mutual

/-- Where one relation of two trees makes another one the same as a property of the first tree. -/
theorem related_iff_every {R S : Item → Item → Prop} {P : Item → Prop}
    (h : ∀ i j, R i j → (S i j ↔ P i)) : ∀ t u : ItemTree, t.Related R u →
      (t.Related S u ↔ t.Every fun i _ => P i)
  | node i is, node j js, htu =>
    and_congr (h i j htu.1) (relatedAll_iff_everyOf h is js htu.2)

/-- One relation holds item by item beside another exactly if a property does. -/
theorem relatedAll_iff_everyOf {R S : Item → Item → Prop} {P : Item → Prop}
    (h : ∀ i j, R i j → (S i j ↔ P i)) : ∀ ts us : List ItemTree, RelatedAll R ts us →
      (RelatedAll S ts us ↔ EveryOf (fun i _ => P i) ts)
  | [], [], _ => Iff.rfl
  | t :: ts, u :: us, htu =>
    and_congr (related_iff_every h t u htu.1) (relatedAll_iff_everyOf h ts us htu.2)
  | [], _ :: _, htu => htu.elim
  | _ :: _, [], htu => htu.elim

end

end ItemTree

/-- `new` is of the type of `old`, with all that is written of what a record restores. -/
structure Item.ComesBack (old new : Item) : Prop where
  /-- The type is the same. -/
  typeId : new.typeId = old.typeId
  /-- What is written comes back. -/
  restorable : new.restorable = old.restorable.written

/-- An item that is rebuilt comes back. -/
theorem Item.RebuiltAs.comesBack {c : Catalog} {i j : Item} {contents : List ItemTree}
    (h : i.RebuiltAs c j) (hStorable : i.Storable c contents) : i.ComesBack j := by
  obtain ⟨t, hType, hKind, hNew⟩ := h.exists_type hStorable
  rw [hNew]
  exact ⟨typeId_rebuilt (Catalog.get?_of_usable? hType), restorable_rebuilt hKind⟩

/-- A tree is read back just if it is not too deep. -/
theorem decode_encode_iff {c : Catalog} {t : ItemTree} (hEvery : t.Every (Item.Storable c))
    (rest : List UInt8) (position : Nat) :
    (∃ found, decode c ⟨position, t.encode c ++ rest⟩ = .ok found) ↔ t.nesting ≤ maxDepth := by
  have hReadable := hEvery.imp (fun i cs h => Item.Storable.readable h)
  constructor
  · rintro ⟨found, hFound⟩
    -- The converse: of a tree that is too deep the decoder is known to fail.
    by_contra hDeep
    obtain ⟨failure, hFails⟩ := decodeWithin_encode_deep c t maxDepth hReadable
      (Nat.lt_of_not_le hDeep) rest position
    rw [decode, hFails] at hFound
    cases hFound
  · intro hNesting
    exact ⟨_, decodeWithin_encode c t maxDepth hReadable hNesting rest position⟩

/-- **Only the numbers of depots are lost.**  What a record is built into can be stored, and a
locker among it has the number that its record names last.  Anything that can be stored is read
back unless it is too deep, and is built again item by item: a locker without a number, and doors,
beds and teleports as they were.  So all of it is as it was if and only if no locker had a
number. -/
theorem only_depot_numbers_lost (c : Catalog) :
    (∀ (r : Record) (t : ItemTree), (r.build c).1 = .ok (some t) →
        (t.Every fun _ contents => contents.length < 4294967296) →
        t.Every (Item.Storable c)
          ∧ ∀ number, t.item.restorable = .depot number → r.depotNumber = number)
      ∧ ∀ t : ItemTree, t.Every (Item.Storable c) → ∀ (rest : List UInt8) (position : Nat),
        ((∃ found, decode c ⟨position, t.encode c ++ rest⟩ = .ok found) ↔ t.nesting ≤ maxDepth)
          ∧ (t.nesting ≤ maxDepth → ∃ r t',
              decode c ⟨position, t.encode c ++ rest⟩
                  = .ok (r, ⟨position + (t.encode c).length, rest⟩)
                ∧ r.build c = (.ok (some t'), .made t.size)
                ∧ t.Related Item.ComesBack t'
                ∧ (t.Related (fun old new => new.restorable = old.restorable) t'
                  ↔ t.Every fun i _ => i.restorable.isNumberedDepot = false)) := by
  constructor
  · intro r t hBuilt hCounted
    exact ⟨storable_of_build hBuilt hCounted, fun _ hDepot => depotNumber_of_build hBuilt hDepot⟩
  · intro t hEvery rest position
    refine ⟨decode_encode_iff hEvery rest position, fun hNesting => ?_⟩
    have hReadable := hEvery.imp (fun i cs h => Item.Storable.readable h)
    obtain ⟨t', hBuilt, hRebuilt⟩ := build_record_rebuiltAs c t hEvery
    have hComesBack : t.Related Item.ComesBack t' :=
      .imp (fun _ _ _ hStorable hAs => hAs.comesBack hStorable) t t' hEvery hRebuilt
    refine ⟨t.record c, t', decodeWithin_encode c t maxDepth hReadable hNesting rest position,
      hBuilt, hComesBack, ItemTree.related_iff_every ?_ t t' hComesBack⟩
    -- Item by item: all comes back but the number of a depot.
    intro i j hBack
    rw [hBack.restorable]
    exact Restorable.written_eq_self

/-! ## §4. A locker with a number. -/

/-- A catalog of one type: lockers. -/
def lockerCatalog : Catalog where
  types := Catalog.empty.types.insert 120 { id := 120, group := .depot, moveable := true }
  keyed := Catalog.empty.keyed_insert { id := 120, group := .depot, moveable := true }

/-- The record of a locker with the number 3 that another locker lies in. -/
def lockerRecord : Record :=
  .mk 120 true [.depotId 3] (some [.mk 120 true [] none])

/-- The two lockers. -/
def lockers : ItemTree :=
  .node { typeId := 120, variant := .depot 0 3 } [.node { typeId := 120, variant := .depot 0 0 } []]

/-- Of the two lockers one has a number, so they do not come back as they were. -/
theorem only_depot_numbers_lost_lockers :
    (lockerRecord.build lockerCatalog).1 = .ok (some lockers)
      ∧ (lockers.Every fun _ contents => contents.length < 4294967296)
      ∧ lockers.nesting ≤ maxDepth ∧ lockerRecord.depotNumber = 3
      ∧ ∃ r t', decode lockerCatalog ⟨0, lockers.encode lockerCatalog ++ []⟩
            = .ok (r, ⟨0 + (lockers.encode lockerCatalog).length, []⟩)
          ∧ r.build lockerCatalog = (.ok (some t'), .made 2)
          ∧ lockers.Related Item.ComesBack t'
          ∧ ¬ lockers.Related (fun old new => new.restorable = old.restorable) t' := by
  have hBuilt : (lockerRecord.build lockerCatalog).1 = .ok (some lockers) := by cbv
  have hCounted : lockers.Every fun _ contents => contents.length < 4294967296 :=
    ⟨by decide, ⟨by decide, trivial⟩, trivial⟩
  obtain ⟨hStorable, hNumber⟩ := (only_depot_numbers_lost lockerCatalog).1 _ _ hBuilt hCounted
  obtain ⟨_, hBack⟩ := (only_depot_numbers_lost lockerCatalog).2 lockers hStorable [] 0
  obtain ⟨r, t', hRead, hAgain, hComesBack, hSame⟩ := hBack (by decide)
  refine ⟨hBuilt, hCounted, by decide, hNumber 3 rfl, r, t', hRead, hAgain, hComesBack, ?_⟩
  rw [hSame]
  decide

/-- What octets are read and built as. -/
def Record.treeOf? (c : Catalog) (octets : List UInt8) : Option ItemTree :=
  match decode c (Reader.ofOctets octets) with
  | .ok (r, _) => (r.build c).1.toOption.join
  | .error _ => none

/-- An empty locker with the number 3, as it may have been stored. -/
def numberedLocker : List UInt8 :=
  [120, 0, 10, 3, 0, 23, 0, 0, 0, 0, 0]

/-- The locker has the number 3 when it is read for the first time, and none the second time. -/
theorem numbered_locker_forgets :
    (treeOf? lockerCatalog numberedLocker).map (·.item.restorable) = some (.depot 3)
      ∧ ((treeOf? lockerCatalog numberedLocker).bind fun t =>
          treeOf? lockerCatalog (t.encode lockerCatalog)).map (·.item.restorable)
        = some (.depot 0) := by
  decide +kernel

end Homestead
