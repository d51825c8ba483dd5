/-
  Homestead.Proofs.Record.RoundTrip
  ─────────────────────────────────
  **WHAT IS WRITTEN COMES BACK.**

  A tree of items of known types is written, read and built again.  The new
  tree has the shape of the old one, and each new item says what the old
  one said, with numbers and texts cut to the room that their fields have.

  Main results:
    * `Item.Restored` — old and new item, attribute by attribute;
    * `restored_rebuilt` — the rebuilt item is the restored one;
    * `build_record_rebuiltAs` — a tree is built again from its record;
    * `decode_encode_build` — writing, reading and building a tree.
-/
import Homestead.Proofs.Record.Built
import Homestead.Proofs.Record.Reading
import Homestead.Proofs.Record.SubType

open Homestead.Stream

namespace Homestead

open Record

/-! ## §1. Items. -/

/-- `new` is `old`, an item of type `t`, as it comes back once its time has had no chance to run:
all about it but where it stands in its decay. -/
structure Item.Restored (c : Catalog) (t : ItemType) (old new : Item) : Prop where
  /-- The type is the same. -/
  typeId : new.typeId = old.typeId
  /-- Numbers are cut to the range of their fields. -/
  number : ∀ k low high, k.range? = some (low, high) →
    new.number k = clamp low high (old.number k)
  /-- Texts are cut to the longest run of whole characters that fits. -/
  text : ∀ k, k.isText →
    Text.IsLongestFit 65535 (old.text k).toList (new.text k).toList
  /-- What scripts attach comes back for items that move. -/
  script : ∀ k, k = .actionId ∨ k = .movementId →
    new.number k = if t.moveable then clamp 0 65535 (old.number k) else 0
  /-- The time comes back, or is the one of a new item. -/
  duration : new.number .duration
    = if old.has .duration then clamp 0 2147483647 (old.number .duration) else t.duration
  /-- The number of a door comes back. -/
  doorId : new.number .doorId = if old.isDoor then clamp 0 255 (old.number .doorId) else 0
  /-- The owner of a corpse is forgotten. -/
  corpseOwner : new.number .corpseOwner = 0
  /-- Who sleeps in a bed and where a teleport leads come back. -/
  variant : new.variant = old.variant.stored
  /-- The sub type comes back, charges in front. -/
  subType : new.subType c = old.storedSubType t
  /-- Charges are the sub type or nothing. -/
  charges : Item.meaningOf t ≠ .charges → new.number .charges = 0
  /-- A fluid is the sub type or nothing. -/
  fluid : Item.meaningOf t ≠ .fluid → new.number .fluidType = 0
  /-- The count is the sub type or one. -/
  count : Item.meaningOf t ≠ .count → new.count = 1

/-- The item built from the fields of an item is the restored one. -/
theorem Item.restored_rebuilt {c : Catalog} {t : ItemType} {i : Item}
    (hType : c.get? i.typeId = some t) (hKind : i.variant.sameKind t.variant = true) :
    Item.Restored c t i (i.rebuilt c t) where
  typeId := typeId_rebuilt hType
  number _ _ _ h := number_rebuilt h
  text _ h := text_rebuilt h
  script _ h := script_rebuilt h hType
  duration := duration_rebuilt
  doorId := doorId_rebuilt hKind
  corpseOwner := corpseOwner_rebuilt
  variant := variant_rebuilt hKind
  subType := subType_rebuilt hType
  -- A type that counts charges or holds a fluid has its own account of them.
  charges h := number_rebuilt_of_meaning (.inl rfl) hType fun hk =>
    h (by cases hm : meaningOf t <;> rw [hm] at hk <;> first | rfl | cases hk)
  fluid h := number_rebuilt_of_meaning (.inr rfl) hType fun hk =>
    h (by cases hm : meaningOf t <;> rw [hm] at hk <;> first | rfl | cases hk)
  count h := count_rebuilt_of_meaning hType h

/-- `new` is `old` as it comes back, with an item that stands in its decay marked as one whose time
is to run. -/
def Item.ReadBack (c : Catalog) (old new : Item) : Prop :=
  ∃ t, c.usable? old.typeId = some t ∧ Item.Restored c t old new
    ∧ new.decayState = if old.decayState = .idle then .idle else .pending

/-! ## §2. Trees. -/

/-- An item of a type that can be used, in the variant of the type, that holds items only if it is
a container, and no more of them than four octets can count. -/
structure Item.Storable (c : Catalog) (i : Item) (contents : List ItemTree) : Prop where
  /-- The type can be used, and gives the variant. -/
  typed : ∃ t, c.usable? i.typeId = some t ∧ i.variant.sameKind t.variant = true
  /-- Contents lie in containers. -/
  hollow : ¬ i.isContainer → contents = []
  /-- They can be counted. -/
  counted : i.isContainer → contents.length < 4294967296

/-- What can be stored can be read. -/
theorem Item.Storable.readable {c : Catalog} {i : Item} {contents : List ItemTree}
    (h : i.Storable c contents) : i.Readable c contents where
  hollow := h.hollow
  counted := h.counted
  holds hHolds := by
    obtain ⟨t, hType, hKind⟩ := h.typed
    rw [hType]
    exact (Variant.isContainer_eq_of_sameKind hKind).symm.trans hHolds

/-- The fields of an item build the item that comes back. -/
theorem newItem?_fields {c : Catalog} {i : Item} {t : ItemType} (h : c.usable? i.typeId = some t) :
    newItem? c (.mk i.typeId (c.usable? i.typeId).isSome
      ((i.fields c).filterMap (Field.update? ((c.usable? i.typeId).map (·.variant)))) none)
      = some (i.rebuilt c t) := by
  unfold newItem? Item.create?
  simp only [Record.known, Record.typeId, Record.updates, h, Option.isSome_some, if_true,
    Option.map_some, Item.rebuilt]

/-- `new` is built from the fields of `old`. -/
def Item.RebuiltAs (c : Catalog) (old new : Item) : Prop :=
  ∃ t, c.usable? old.typeId = some t ∧ new = old.rebuilt c t

/-- An item that can be stored is built again as one of its type, which gives its variant. -/
theorem Item.RebuiltAs.exists_type {c : Catalog} {i j : Item} {contents : List ItemTree}
    (h : i.RebuiltAs c j) (hStorable : i.Storable c contents) :
    ∃ t, c.usable? i.typeId = some t ∧ i.variant.sameKind t.variant = true
      ∧ j = i.rebuilt c t := by
  obtain ⟨t, hType, hKind⟩ := hStorable.typed
  obtain ⟨t', hType', hNew⟩ := h
  obtain rfl : t = t' := Option.some_inj.1 (hType.symm.trans hType')
  exact ⟨t, hType, hKind, hNew⟩

/-- What is built from the fields of an item in the variant of its type is the restored item. -/
theorem Item.RebuiltAs.readBack {c : Catalog} {i j : Item} {contents : List ItemTree}
    (h : i.RebuiltAs c j) (hStorable : i.Storable c contents) : i.ReadBack c j := by
  obtain ⟨t, hType, hKind, hNew⟩ := h.exists_type hStorable
  have hRestored : Item.Restored c t i (i.rebuilt c t) :=
    Item.restored_rebuilt (Catalog.get?_of_usable? hType) hKind
  refine ⟨t, hType, hNew ▸ hRestored, ?_⟩
  rw [hNew]
  exact Item.decayState_rebuilt

/-- The new item is of the kind of the old one. -/
theorem Item.isContainer_rebuilt {c : Catalog} {t : ItemType} {i : Item}
    (hKind : i.variant.sameKind t.variant = true) :
    (i.rebuilt c t).isContainer = i.isContainer := by
  have hSame := Item.sameKind_variant_applyAll c (Item.ofType t 0)
    ((i.fields c).filterMap (Field.update? (some t.variant)))
  rw [Item.variant_ofType] at hSame
  show (i.rebuilt c t).variant.isContainer = i.variant.isContainer
  rw [Item.rebuilt, Variant.isContainer_eq_of_sameKind hSame,
    Variant.isContainer_eq_of_sameKind hKind]

mutual

/-- **The record of a tree is built into the tree of the rebuilt items.** -/
theorem build_record_rebuiltAs (c : Catalog) :
    ∀ t : ItemTree, t.Every (Item.Storable c) →
      ∃ t', (t.record c).build c = (.ok (some t'), .made t.size)
        ∧ t.Related (Item.RebuiltAs c) t'
  | .node i contents, hEvery => by
    obtain ⟨hStorable, hContents⟩ := hEvery
    obtain ⟨ty, hType, hKind⟩ := hStorable.typed
    have hNew := newItem?_fields hType
    by_cases hHolds : i.isContainer
    · obtain ⟨trees, hBuilt, hRelated⟩ := buildAll_records_rebuiltAs c contents hContents
      -- The new item holds things too.
      have hNewHolds : (i.rebuilt c ty).isContainer := (Item.isContainer_rebuilt hKind).trans hHolds
      refine ⟨.node (i.rebuilt c ty) trees, ?_, ⟨ty, hType, rfl⟩, hRelated⟩
      rw [ItemTree.record, build, if_pos hHolds, hNew]
      simp only [hNewHolds, Bool.not_true, hBuilt]
      rfl
    · rw [hStorable.hollow hHolds]
      refine ⟨.node (i.rebuilt c ty) [], ?_, ⟨ty, hType, rfl⟩, trivial⟩
      rw [ItemTree.record, build, if_neg hHolds, hNew]
      rfl

/-- The records of trees that can be stored are built, tree by tree. -/
theorem buildAll_records_rebuiltAs (c : Catalog) :
    ∀ ts : List ItemTree, ItemTree.EveryOf (Item.Storable c) ts →
      ∃ ts', buildAll c (ItemTree.records c ts) = (.ok ts', .made (ItemTree.sizes ts))
        ∧ ItemTree.RelatedAll (Item.RebuiltAs c) ts ts'
  | [], _ => ⟨[], rfl, trivial⟩
  | t :: ts, hEvery => by
    obtain ⟨t', hTree, hHead⟩ := build_record_rebuiltAs c t hEvery.1
    obtain ⟨ts', hTrees, hTail⟩ := buildAll_records_rebuiltAs c ts hEvery.2
    refine ⟨t' :: ts', ?_, hHead, hTail⟩
    rw [ItemTree.records, buildAll, hTree, hTrees]
    rfl

end

/-- The record of a tree is built into a tree that reads back as it. -/
theorem build_record (c : Catalog) (t : ItemTree) (hEvery : t.Every (Item.Storable c)) :
    ∃ t', (t.record c).build c = (.ok (some t'), .made t.size)
      ∧ t.Related (Item.ReadBack c) t' := by
  obtain ⟨t', hBuilt, hRelated⟩ := build_record_rebuiltAs c t hEvery
  exact ⟨t', hBuilt, .imp (fun _ _ _ hItem hAs => hAs.readBack hItem) t t' hEvery hRelated⟩

/-- The records of trees are built into trees that read back as they. -/
theorem buildAll_records (c : Catalog) (ts : List ItemTree)
    (hEvery : ItemTree.EveryOf (Item.Storable c) ts) :
    ∃ ts', buildAll c (ItemTree.records c ts) = (.ok ts', .made (ItemTree.sizes ts))
      ∧ ItemTree.RelatedAll (Item.ReadBack c) ts ts' := by
  obtain ⟨ts', hBuilt, hRelated⟩ := buildAll_records_rebuiltAs c ts hEvery
  exact ⟨ts', hBuilt,
    .imp (fun _ _ _ hItem hAs => hAs.readBack hItem) ts ts' hEvery hRelated⟩

/-- **Writing a tree, reading it with anything behind it, and building what was read** gives a tree
of the same shape, item by item the restored one; nothing is let go, and the cursor stops right
behind what was written. -/
theorem decode_encode_build (c : Catalog) (t : ItemTree) (hEvery : t.Every (Item.Storable c))
    (hNesting : t.nesting ≤ maxDepth) (rest : List UInt8) (position : Nat) :
    ∃ r t', decode c ⟨position, t.encode c ++ rest⟩
          = .ok (r, ⟨position + (t.encode c).length, rest⟩)
        ∧ r.build c = (.ok (some t'), { created := t.size, discarded := 0 })
        ∧ t.Related (Item.ReadBack c) t' := by
  have hReadable := hEvery.imp (fun i cs h => Item.Storable.readable h)
  obtain ⟨t', hBuilt, hRelated⟩ := build_record c t hEvery
  exact ⟨t.record c, t', decodeWithin_encode c t maxDepth hReadable hNesting rest position, hBuilt,
    hRelated⟩

/-- A catalog of one type: bags, which move about and hold items. -/
def bagCatalog : Catalog where
  types := Catalog.empty.types.insert 1 { id := 1, group := .container, moveable := true }
  keyed := Catalog.empty.keyed_insert { id := 1, group := .container, moveable := true }

/-- A new bag. -/
def bag : Item := { typeId := 1, variant := .emptyContainer }

/-- A bag can be stored with any contents that can be counted. -/
theorem bag_storable (contents : List ItemTree) (h : contents.length < 4294967296) :
    bag.Storable bagCatalog contents where
  typed := ⟨{ id := 1, group := .container, moveable := true }, by decide, rfl⟩
  hollow hHolds := absurd rfl hHolds
  counted _ := h

/-- A bag in a bag, with an octet behind it. -/
theorem decode_encode_build_bags :
    ∃ r t', decode bagCatalog ⟨0, (ItemTree.node bag [.node bag []]).encode bagCatalog ++ [7]⟩
          = .ok (r, ⟨0 + ((ItemTree.node bag [.node bag []]).encode bagCatalog).length, [7]⟩)
        ∧ r.build bagCatalog = (.ok (some t'), { created := 2, discarded := 0 })
        ∧ (ItemTree.node bag [.node bag []]).Related (Item.ReadBack bagCatalog) t' :=
  decode_encode_build bagCatalog (.node bag [.node bag []])
    ⟨bag_storable _ (by decide), ⟨bag_storable _ (by decide), trivial⟩, trivial⟩ (by decide) [7] 0

end Homestead
