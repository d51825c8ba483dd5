/-
  Homestead.Proofs.Record.Charges
  ───────────────────────────────
  **WHEN THE SUB TYPE COMES BACK.**

  The count, the fluid and the charges of an item are one number to the
  outside, and are written under two tags: what is counted under one, and
  charges, of whatever item, under the other, unless there are none.  Both
  are read into the sub type, the charges last.

  So an item that has used up its charges comes back with those of a new
  one, for nothing was written of them.  And a stack or a fluid that has
  charges besides, which it kept from a former type or was given, comes
  back with the charges in place of the count or the fluid.  All others
  come back with the sub type that they had, cut to one octet where it is
  counted.

  Main results:
    * `storedSubType_eq_iff` — when what is stored is the sub type;
    * `Made.subType_comes_back` — the way of an item to the disk and back.
-/
import Homestead.Proofs.Graph.Items

namespace Homestead

open Record

namespace Item

variable {c : Catalog} {t : ItemType} {i : Item}

/-! ## §1. What is stored of the sub type. -/

/-- The sub type that an item of a type should come back with: the one that it has, cut to one octet
where it is a count or a fluid. -/
def wantedSubType (c : Catalog) (t : ItemType) (i : Item) : Nat :=
  if t.stackable || t.holdsFluid then min 255 (i.subType c).toNat else (i.subType c).toNat

/-- Charges do not get in the way of the sub type: there are some where they are the sub type, and
elsewhere there are none, or just as many. -/
def SparesSubType (t : ItemType) (i : Item) : Prop :=
  match meaningOf t with
  | .charges => i.charges ≠ 0
  | .fluid => i.charges = 0 ∨ i.charges.toNat = min 255 i.fluid.toNat
  | .count => i.charges = 0 ∨ min 255 i.charges.toNat = i.count.toNat

instance (t : ItemType) (i : Item) : Decidable (SparesSubType t i) :=
  match h : meaningOf t with
  | .charges => decidable_of_iff (i.charges ≠ 0) (by rw [SparesSubType, h])
  | .fluid => decidable_of_iff (i.charges = 0 ∨ i.charges.toNat = min 255 i.fluid.toNat)
      (by rw [SparesSubType, h])
  | .count => decidable_of_iff (i.charges = 0 ∨ min 255 i.charges.toNat = i.count.toNat)
      (by rw [SparesSubType, h])

/-- A number is cut to at most 255. -/
theorem toNat_octet (n : UInt16) : (clampU8 n.toNat).toNat = min 255 n.toNat := by
  have hCut := toNat_clampU8 n.toNat
  unfold clamp at hCut
  omega

/-- The types whose items have a sub type to store. -/
theorem stackable_or_of_meaning (hUses : t.stackable = true ∨ t.holdsFluid = true ∨ t.charges ≠ 0) :
    match meaningOf t with
    | .charges => (t.stackable || t.holdsFluid) = false ∧ t.charges ≠ 0
    | .fluid => (t.stackable || t.holdsFluid) = true
    | .count => t.stackable = true := by
  unfold meaningOf
  cases hFluid : t.holdsFluid
  · cases hStack : t.stackable
    · have hCharges : t.charges ≠ 0 := by simpa [hFluid, hStack] using hUses
      simp [hCharges]
    · simp
  · simp

/-- **When what is stored is the sub type.** -/
theorem storedSubType_eq_iff (hType : c.get? i.typeId = some t)
    (hUses : t.stackable = true ∨ t.holdsFluid = true ∨ t.charges ≠ 0) :
    (i.storedSubType t).toNat = i.wantedSubType c t ↔ i.SparesSubType t := by
  have hMeaning : i.meaning c = meaningOf t := by rw [meaning, hType]; rfl
  have hGroup := stackable_or_of_meaning hUses
  unfold storedSubType wantedSubType SparesSubType subType
  rw [hMeaning]
  cases hm : meaningOf t with
  | charges =>
    rw [hm] at hGroup
    rw [hGroup.1]
    by_cases hNone : i.charges = 0
    · -- Nothing is written, and a new item has charges.
      have hNew : t.charges.toNat ≠ 0 := fun h => hGroup.2 (UInt16.toNat_inj.1 h)
      simp [hNone, hNew]
    · simp [hNone]
  | fluid =>
    rw [hm] at hGroup
    rw [hGroup]
    by_cases hNone : i.charges = 0
    · simp [hNone, toNat_octet]
    · simp [hNone]
  | count =>
    rw [hm] at hGroup
    have hCount := i.count.toNat_lt
    have hOctet : min 255 i.count.toNat = i.count.toNat := by omega
    by_cases hNone : i.charges = 0
    · simp [hNone, hGroup, hOctet]
    · simp [hNone, hGroup, hOctet, toNat_octet]

/-! ## §2. There and back. -/

/-- The items that come from new ones by changes and by getting other types. -/
inductive Made (c : Catalog) : Item → Prop where
  /-- A new item. -/
  | new {id : TypeId} {n : UInt16} {i : Item} (h : create? c id n = some i) : Made c i
  /-- Its count, its charges, its sub type or an attribute is changed. -/
  | edited {i : Item} (h : Made c i) (e : Item.Edit) : Made c (i.edit c e)
  /-- It gets another type. -/
  | become {i : Item} (h : Made c i) (id : TypeId) : Made c (i.become c id)

/-- An item that is made is of the right kind for its type. -/
theorem Made.typed (h : i.Made c) : i.Typed c := by
  induction h with
  | new h => exact typed_create? h
  | edited _ e ih => exact ih.of_sameKind (typeId_edit c _ e) (sameKind_edit c _ e)
  | become _ id _ => exact typed_become _ id

/-- **What comes back of the sub type**: of an item that holds nothing, however it was made and
changed, the record that is written is read again, and building it gives one item of its type.  The
new item has the sub type that the old one had if charges did not get in the way, and only then. -/
theorem Made.subType_comes_back (hMade : i.Made c) (hType : c.usable? i.typeId = some t)
    (hUses : t.stackable = true ∨ t.holdsFluid = true ∨ t.charges ≠ 0) (rest : List UInt8)
    (position : Nat) :
    ∃ r i', decode c ⟨position, (ItemTree.node i []).encode c ++ rest⟩
        = .ok (r, ⟨position + ((ItemTree.node i []).encode c).length, rest⟩)
      ∧ r.build c = (.ok (some (.node i' [])), { created := 1, discarded := 0 })
      ∧ i'.typeId = i.typeId ∧ i'.subType c = i.storedSubType t
      ∧ ((i'.subType c).toNat = i.wantedSubType c t ↔ i.SparesSubType t) := by
  have hGet := Catalog.get?_of_usable? hType
  have hStorable : (ItemTree.node i []).Every (Item.Storable c) :=
    ⟨⟨⟨t, hType, hMade.typed t hGet⟩, fun _ => rfl, fun _ => by decide⟩, trivial⟩
  have hNesting : (ItemTree.node i []).nesting ≤ maxDepth := by
    rw [ItemTree.nesting, ItemTree.nestings, Nat.zero_add]
    split_ifs <;> decide
  have hReadable := hStorable.imp fun i cs h => Item.Storable.readable h
  obtain ⟨t', hBuilt, hRelated⟩ := build_record_rebuiltAs c (.node i []) hStorable
  cases t' with
  | node i' contents =>
    obtain ⟨hAs, hContents⟩ := hRelated
    -- What comes back is the item that is built from its own fields.
    obtain ⟨u, hUsable, hNew⟩ := hAs
    obtain rfl : t = u := Option.some_inj.1 (hType.symm.trans hUsable)
    obtain rfl : contents = [] := List.length_eq_zero_iff.1 hContents.length_eq.symm
    have hSubType : i'.subType c = i.storedSubType t := by rw [hNew, subType_rebuilt hGet]
    refine ⟨_, i', decodeWithin_encode c (.node i []) maxDepth hReadable hNesting rest position,
      hBuilt, by rw [hNew, typeId_rebuilt hGet], hSubType, ?_⟩
    rw [hSubType]
    exact storedSubType_eq_iff hGet hUses

end Item

/-! ## §3. Wands and coins. -/

/-- A wand, which has charges. -/
def wand : ItemType where
  id := 1
  moveable := true
  charges := 5

/-- Coins, which form stacks. -/
def coin : ItemType where
  id := 2
  moveable := true
  stackable := true

/-- A catalog with the two. -/
def chargedCatalog : Catalog where
  types := (Catalog.empty.types.insert 1 wand).insert 2 coin
  keyed := Catalog.keyed_insert
    { types := Catalog.empty.types.insert 1 wand
      keyed := Catalog.empty.keyed_insert wand } coin

namespace Item

/-- A wand with so many charges. -/
def wandOf (n : UInt16) : Item :=
  (ofType wand 0).edit chargedCatalog (.update (.subType n))

/-- Seven coins that have three charges. -/
def chargedCoins : Item :=
  (ofType coin 7).edit chargedCatalog (.update (.number .charges 3))

/-- A wand with any charges is made. -/
theorem made_wandOf (n : UInt16) : (wandOf n).Made chargedCatalog :=
  .edited (.new (show create? chargedCatalog 1 0 = some (ofType wand 0) by rfl)) _

/-- A wand that has one charge left comes back with one. -/
theorem subType_comes_back_wand :
    (wandOf 1).Made chargedCatalog ∧ chargedCatalog.usable? (wandOf 1).typeId = some wand
      ∧ wand.charges ≠ 0
      ∧ ∃ r i', decode chargedCatalog ⟨0, (ItemTree.node (wandOf 1) []).encode chargedCatalog ++ [7]⟩
          = .ok (r, ⟨0 + ((ItemTree.node (wandOf 1) []).encode chargedCatalog).length, [7]⟩)
        ∧ r.build chargedCatalog = (.ok (some (.node i' [])), { created := 1, discarded := 0 })
        ∧ (i'.subType chargedCatalog).toNat = 1 := by
  have hType : chargedCatalog.usable? (wandOf 1).typeId = some wand := by rfl
  obtain ⟨r, i', hRead, hBuilt, _, _, hIff⟩ :=
    (made_wandOf 1).subType_comes_back hType (.inr (.inr (by decide))) [7] 0
  refine ⟨made_wandOf 1, hType, by decide, r, i', hRead, hBuilt, ?_⟩
  rw [hIff.2 (by decide +kernel)]
  decide +kernel

/-- What an item comes back as when it is written, read and built again. -/
def reread? (c : Catalog) (i : Item) : Option Item :=
  match decode c ⟨0, (ItemTree.node i []).encode c⟩ with
  | .ok (r, _) =>
    match r.build c with
    | (.ok (some (.node i' _)), _) => some i'
    | _ => none
  | .error _ => none

/-- A wand that is used up comes back with five charges, and seven coins come back as three. -/
theorem spent_wand_recharged :
    (wandOf 0).subType chargedCatalog = 0
      ∧ ((wandOf 0).reread? chargedCatalog).map (·.subType chargedCatalog) = some 5
      ∧ chargedCoins.subType chargedCatalog = 7
      ∧ (chargedCoins.reread? chargedCatalog).map (·.subType chargedCatalog) = some 3 := by
  decide +kernel

end Item

end Homestead
