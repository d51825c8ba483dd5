/-
  Homestead.Proofs.Record.SubType
  ───────────────────────────────
  **WHAT COMES BACK OF THE SUB TYPE.**

  Two fields are read into the sub type: the count, and behind it charges,
  which are written whenever an item has any.  So charges take the place of
  a count or a fluid when the item comes back.

  Main results:
    * `subType_rebuilt` — the sub type of the rebuilt item;
    * `number_rebuilt_of_meaning`, `count_rebuilt_of_meaning` — charges,
      fluid and count where they are not the sub type.
-/
import Homestead.Proofs.Record.Rebuilt

open Homestead.Stream

namespace Homestead

open Record

namespace Item

variable {c : Catalog} {t : ItemType} {i : Item}

/-! ## §1. What writes the sub type. -/

/-- What an update makes of the sub type. -/
def subTypeWrites (m : SubTypeMeaning) : Update → Option UInt16
  | .subType n => some (if m = .count then (clampU8 n.toNat).toUInt16 else n)
  | .number k n => if m.kind? = some k then some (clampU16 n) else none
  | _ => none

theorem clampU16_toNat (n : UInt16) : clampU16 n.toNat = n := by
  have h := toNat_clampU16 n.toNat
  have hLt := n.toNat_lt
  refine UInt16.toNat_inj.1 ?_
  unfold clamp at h
  omega

/-- A sub type that is an attribute is a number. -/
theorem meaning_kind?_isNumber {m : SubTypeMeaning} {k : Kind} (h : m.kind? = some k) :
    k.isNumber := by
  cases m <;> cases h <;> rfl

/-- An update of an item whose sub type is an attribute. -/
theorem clampU16_number_apply {k : Kind} (hk : (i.meaning c).kind? = some k) (u : Update) :
    clampU16 ((i.apply c u).number k)
      = (subTypeWrites (i.meaning c) u).getD (clampU16 (i.number k)) := by
  have hNumber := meaning_kind?_isNumber hk
  -- A count is a field of the item, and has no kind.
  have hCount : i.meaning c ≠ .count := by
    intro h
    rw [h] at hk
    cases hk
  -- The kind is that of charges or of a fluid, and no update of another kind touches it.
  have hOther : ∀ kind : Kind, kind.isNumber → kind ≠ .charges → kind ≠ .fluidType → k ≠ kind := by
    rintro kind _ hCharges hFluid rfl
    cases hm : i.meaning c <;> rw [hm] at hk <;> cases hk <;> contradiction
  cases u with
  | subType n =>
    -- The sub type is written under this kind, and fits into 16 bits as it is.
    have hEntry := entry_setSubType i k c n
    rw [if_pos hk] at hEntry
    show clampU16 ((i.setSubType c n).number k) = _
    rw [number_of_entry hNumber hEntry, clampU16_toNat, subTypeWrites, if_neg hCount]
    rfl
  | number k' n =>
    show clampU16 ((i.setNumber k' n).number k) = _
    rw [number_setNumber, subTypeWrites, hk]
    by_cases h : k = k'
    · simp [← h, hNumber]
    · simp [h]
  | text k' s =>
    show clampU16 ((i.setText k' s).number k) = _
    rw [number_setText]
    rfl
  | duration n =>
    show clampU16 ((i.setNumber .duration _).number k) = _
    rw [number_setNumber, if_neg fun h => hOther .duration rfl (by decide) (by decide) h.1]
    rfl
  | decayPending =>
    show clampU16 ((i.setNumber .decayState _).number k) = _
    rw [number_setNumber, if_neg fun h => hOther .decayState rfl (by decide) (by decide) h.1]
    rfl
  | _ => rfl

/-- What an attribute of a record does to the sub type is told by the attribute. -/
theorem subType_apply (u : Update) :
    (i.apply c u).subType c = (subTypeWrites (i.meaning c) u).getD (i.subType c) := by
  unfold subType
  rw [meaning_apply]
  -- The sub type is the count, cut to two octets, or one of two numbers.
  cases hm : i.meaning c with
  | count =>
    have hCount : (i.apply c u).count = (countWrites (i.meaning c) u).getD i.count :=
      sees_count (i.meaning c) i u rfl
    show (i.apply c u).count.toUInt16 = (subTypeWrites .count u).getD i.count.toUInt16
    rw [hCount, hm]
    cases u <;> simp [countWrites, subTypeWrites, SubTypeMeaning.kind?]
  | fluid =>
    have h := clampU16_number_apply (c := c) (i := i) (k := .fluidType) (by rw [hm]; rfl) u
    rw [hm] at h
    exact h
  | charges =>
    have h := clampU16_number_apply (c := c) (i := i) (k := .charges) (by rw [hm]; rfl) u
    rw [hm] at h
    exact h

/-- The sub type sees those attributes that write it, and nothing of the others. -/
theorem sees_subType (m : SubTypeMeaning) :
    Sees c m (fun i => i.subType c) (subTypeWrites m) := by
  rintro i u rfl
  exact subType_apply u

/-! ## §2. What comes back of it. -/

/-- The sub type that comes back of an item of a type.  Charges are written for every type, and
take the place of the sub type whatever it means. -/
def storedSubType (t : ItemType) (i : Item) : UInt16 :=
  if i.charges ≠ 0 then
    if meaningOf t = .count then (clampU8 i.charges.toNat).toUInt16 else i.charges
  else match meaningOf t with
    | .charges => t.charges
    | .fluid => (clampU8 i.fluid.toNat).toUInt16
    | .count => if t.stackable then i.count.toUInt16 else 1

/-- The sub type comes first, as it is counted. -/
theorem fields_eq_countFields_append (c : Catalog) (i : Item) :
    ∃ rest, i.fields c = i.countFields c ++ rest ∧ ∀ f ∈ rest, f.tag ≠ .count := by
  unfold fields
  simp only [List.append_assoc]
  refine ⟨_, rfl, ?_⟩
  rintro ⟨tag, payload⟩ h
  show tag ≠ .count
  rintro rfl
  unfold decayFields Field.ofText Field.ofI32 Field.ofU8 Field.ofU16 Field.ofBonus at h
  simp only [List.mem_append, mem_when, mem_scriptFields, mem_variantFields, Field.mk.injEq] at h
  simp at h

/-- The sub type of a new item means what its type says. -/
theorem meaning_ofType {n : UInt16} (hType : c.get? t.id = some t) :
    (ofType t n).meaning c = meaningOf t := by
  rw [meaning, typeId_ofType, hType]
  rfl

theorem clampU8_toUInt16 (n : UInt8) : clampU8 n.toUInt16.toNat = n := by
  have h := toNat_clampU8 n.toUInt16.toNat
  have hLt := n.toNat_lt
  have hNat : n.toUInt16.toNat = n.toNat := UInt8.toNat_toUInt16 n
  refine UInt8.toNat_inj.1 ?_
  unfold clamp at h
  omega

/-- The sub type of a new item. -/
theorem subType_ofType (hType : c.get? t.id = some t) (hStack : t.stackable = false)
    (hFluid : t.holdsFluid = false) :
    (ofType t 0).subType c = if meaningOf t = .charges then t.charges else 1 := by
  unfold subType
  rw [meaning_ofType hType]
  by_cases hCharges : t.charges = 0
  · -- A type that neither stacks nor holds fluids nor has charges only counts.
    have hm : meaningOf t = .count := by simp [meaningOf, hStack, hFluid, hCharges]
    rw [hm]
    show (ofType t 0).count.toUInt16 = 1
    rw [count_ofType_zero]
    simp [hStack]
  · -- A new item starts with all charges of its type.
    have hm : meaningOf t = .charges := by simp [meaningOf, hStack, hFluid, hCharges]
    rw [hm]
    show clampU16 ((ofType t 0).number .charges) = t.charges
    rw [number_ofType, startNumber, if_pos ⟨rfl, hm⟩, clampU16_toNat]

/-- The sub type that is read from the count, or is there by itself. -/
theorem subType_countFields (hType : c.get? i.typeId = some t) (hCharges : i.charges = 0) :
    ((ofType t 0).applyAll c
      ((i.countFields c).filterMap (Field.update? (some t.variant)))).subType c
      = i.storedSubType t := by
  have hNew : c.get? t.id = some t := by rw [Catalog.id_of_get? hType, hType]
  have hOld : i.meaning c = meaningOf t := by rw [meaning, hType]; rfl
  have hCounted : i.isCounted c = (t.stackable || t.holdsFluid) := by rw [isCounted, hType]; rfl
  have hFields : i.countFields c
      = Field.when (t.stackable || t.holdsFluid) .count (.u8 (clampU8 (i.subType c).toNat)) := by
    rw [← hCounted]
    rfl
  rw [hFields, storedSubType, if_neg (not_not.2 hCharges)]
  -- What the number means is up to the type: a fluid, then a count, then charges.
  by_cases hFluid : t.holdsFluid
  · have hm : meaningOf t = .fluid := by simp [meaningOf, hFluid]
    have hSub : i.subType c = i.fluid := by rw [subType, hOld, hm]
    rw [hFluid, Bool.or_true, hm, hSub]
    show ((ofType t 0).apply c (.subType (clampU8 i.fluid.toNat).toUInt16)).subType c = _
    rw [subType_apply, meaning_ofType hNew, hm]
    rfl
  · by_cases hStack : t.stackable
    · have hm : meaningOf t = .count := by simp [meaningOf, hFluid, hStack]
      have hSub : i.subType c = i.count.toUInt16 := by rw [subType, hOld, hm]
      rw [hStack, Bool.true_or, hm, hSub, clampU8_toUInt16]
      show ((ofType t 0).apply c (.subType i.count.toUInt16)).subType c = i.count.toUInt16
      rw [subType_apply, meaning_ofType hNew, hm]
      show (clampU8 i.count.toUInt16.toNat).toUInt16 = _
      rw [clampU8_toUInt16]
    · have hStack' : t.stackable = false := Bool.eq_false_iff.2 hStack
      have hFluid' : t.holdsFluid = false := Bool.eq_false_iff.2 hFluid
      rw [hStack', hFluid']
      show (ofType t 0).subType c = _
      rw [subType_ofType hNew hStack' hFluid']
      cases hm : meaningOf t with
      | count => rfl
      | charges => rfl
      | fluid => by_cases hZero : t.charges = 0 <;> simp [meaningOf, hFluid', hStack', hZero] at hm

/-- Behind the count, only charges are read into the sub type. -/
theorem eq_charges_of_subTypeWrites {f : Field} {u : Update} {n : UInt16}
    (hf : f ∈ i.fields c) (hCount : f.tag ≠ .count) (hu : f.update? (some t.variant) = some u)
    (hn : subTypeWrites (meaningOf t) u = some n) :
    i.charges ≠ 0 ∧ f = ⟨.charges, [.u16 i.charges]⟩ := by
  have hPayload := (mem_fields_iff c i f).1 hf
  obtain ⟨tag, payload⟩ := f
  have hMakes := Field.makes_of_update? hu
  -- No field writes charges or a fluid straight away.
  have hDirect : ∀ {k : Kind}, tag.kind? = some k → (meaningOf t).kind? ≠ some k := by
    intro k hk hm
    cases hMeaning : meaningOf t <;> rw [hMeaning] at hm <;> cases hm <;> cases tag <;> cases hk
  cases hMakes with
  | subType n' h =>
    rcases h with h | h | h
    · exact absurd h hCount
    · obtain rfl : tag = .runeCharges := h
      cases hPayload
    · obtain rfl : tag = .charges := h
      obtain ⟨hGiven, rfl⟩ := given_eq_some.1 hPayload
      exact ⟨bne_iff_ne.1 hGiven, rfl⟩
  | number n' h =>
    rw [subTypeWrites, if_neg (hDirect h)] at hn
    cases hn
  | doorId n' h =>
    cases hm : meaningOf t <;> rw [hm] at hn <;> cases hn
  | _ => cases hn

/-- The sub type that comes back is the one that is stored. -/
theorem subType_rebuilt (hType : c.get? i.typeId = some t) :
    (i.rebuilt c t).subType c = i.storedSubType t := by
  have hNew : c.get? t.id = some t := by rw [Catalog.id_of_get? hType, hType]
  obtain ⟨rest, hFields, hRest⟩ := fields_eq_countFields_append c i
  have hMem : ∀ f ∈ rest, f ∈ i.fields c := by
    intro f hf
    rw [hFields]
    exact List.mem_append_right _ hf
  have hFirst := subType_countFields (c := c) (i := i) hType
  rw [rebuilt, hFields, List.filterMap_append, applyAll_append]
  have hMeaning : ((ofType t 0).applyAll c
      ((i.countFields c).filterMap (Field.update? (some t.variant)))).meaning c = meaningOf t := by
    rw [meaning_eq_of_typeId c (typeId_applyAll c _ _), meaning_ofType hNew]
  generalize (ofType t 0).applyAll c
    ((i.countFields c).filterMap (Field.update? (some t.variant))) = new at hFirst hMeaning ⊢
  have hSees := sees_subType (c := c) (new.meaning c)
  -- Charges are written behind the count, and the last one written is what stays.
  by_cases hCharges : i.charges = 0
  · rw [← hFirst hCharges]
    refine hSees.of_spared _ ?_
    intro u hu
    obtain ⟨f, hf, hUpdate⟩ := List.mem_filterMap.1 hu
    rw [hMeaning]
    cases hn : subTypeWrites (meaningOf t) u with
    | none => rfl
    | some n =>
      exact absurd hCharges (eq_charges_of_subTypeWrites (hMem f hf) (hRest f hf) hUpdate hn).1
  · rw [storedSubType, if_pos hCharges]
    -- The field of the charges is not the one of the count.
    have hThere : (⟨.charges, [.u16 i.charges]⟩ : Field) ∈ rest := by
      have hAll : (⟨.charges, [.u16 i.charges]⟩ : Field) ∈ i.fields c := by
        rw [mem_fields_iff]
        exact given_eq_some.2 ⟨bne_iff_ne.2 hCharges, rfl⟩
      rw [hFields] at hAll
      rcases List.mem_append.1 hAll with h | h
      · have hTag := (mem_when.1 h).2
        cases hTag
      · exact h
    refine hSees.of_agreed _ ?_ ?_
    · refine ⟨.subType i.charges, List.mem_filterMap.2 ⟨_, hThere, rfl⟩, ?_⟩
      rw [hMeaning]
      rfl
    · intro u hu n hn
      obtain ⟨f, hf, hUpdate⟩ := List.mem_filterMap.1 hu
      rw [hMeaning] at hn
      obtain rfl := (eq_charges_of_subTypeWrites (hMem f hf) (hRest f hf) hUpdate hn).2
      obtain rfl : Update.subType i.charges = u := Option.some_inj.1 hUpdate
      exact (Option.some_inj.1 hn).symm

/-! ## §3. What the sub type is not. -/

/-- Charges and fluids come back as 0 where they are not the sub type. -/
theorem number_rebuilt_of_meaning {k : Kind} (hk : k = .charges ∨ k = .fluidType)
    (hType : c.get? i.typeId = some t) (hm : (meaningOf t).kind? ≠ some k) :
    (i.rebuilt c t).number k = 0 := by
  have hNew : c.get? t.id = some t := by rw [Catalog.id_of_get? hType, hType]
  have hOther : k ≠ .duration := by rcases hk with rfl | rfl <;> decide
  have hStart : startNumber t k = 0 := by
    rw [startNumber, if_neg, if_neg hOther]
    rintro ⟨rfl, h⟩
    exact hm (by rw [h]; rfl)
  rw [← hStart, ← number_ofType]
  -- No field of the record writes this entry, so it is that of a new item.
  refine number_eq_of_entry ((sees_entry _ k).of_spared _ ?_)
  intro u hu
  obtain ⟨f, hf, hUpdate⟩ := List.mem_filterMap.1 hu
  cases he : entryWrites ((ofType t 0).meaning c) k u with
  | none => rfl
  | some e =>
    obtain ⟨v, hv, rfl⟩ := entryWrites_eq_some.1 he
    rw [meaning_ofType hNew] at hv
    have hTarget := (Field.makes_of_update? hUpdate).target? hv
    rcases hk with rfl | rfl <;> cases hTag : f.tag <;> rw [hTag] at hTarget <;>
      first | exact absurd hTarget hm | cases hTarget

/-- An item that does not stack comes back as one. -/
theorem count_rebuilt_of_meaning (hType : c.get? i.typeId = some t)
    (hm : meaningOf t ≠ .count) : (i.rebuilt c t).count = 1 := by
  have hNew : c.get? t.id = some t := by rw [Catalog.id_of_get? hType, hType]
  have hCount : (ofType t 0).count = 1 := by
    rw [count_ofType_zero]
    by_cases hFluid : t.holdsFluid
    · simp [hFluid]
    · -- An item that stacks has its sort in its count.
      by_cases hStack : t.stackable
      · exact absurd (by simp [meaningOf, hFluid, hStack]) hm
      · simp [hStack]
  rw [← hCount]
  refine (sees_count _).of_spared _ ?_
  -- Only a sort could write the count, and it does so for items that stack.
  intro u _
  rw [meaning_ofType hNew]
  cases u with
  | subType n => exact if_neg hm
  | _ => rfl

end Item

end Homestead
