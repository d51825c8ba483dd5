/-
  Homestead.Proofs.Item.Values
  ────────────────────────────
  **WHAT AN ITEM SAYS AFTER A CHANGE.**

  All that an item says about a kind of attribute is its entry.  Each
  change of an item writes one entry, or the count, or the variant, and
  leaves the rest alone.

  Main results:
    * `entry_setNumber`, `entry_setText`, `entry_remove` — the entries after
      a change of the attributes;
    * `entry_setSubType` — the sub type is one entry, or none;
    * `number_ofType`, `text_ofType` — the entries of a new item.
-/
import Homestead.Item.Basic
import Homestead.Proofs.Attribute.Table
import Mathlib.Order.Lattice
import Mathlib.Tactic.SplitIfs

namespace Homestead

namespace Item

variable (i : Item) (j k : Kind)

/-! ## §1. Entries. -/

/-- Whether the item has an attribute, and its value. -/
def entry : Bool × Option AttributeValue :=
  i.table.entry k

/-- Items with the same entry give the same number. -/
theorem number_eq_of_entry {i i' : Item} {k : Kind} (h : i.entry k = i'.entry k) :
    i.number k = i'.number k :=
  AttributeTable.number_eq_of_entry h

/-- Items with the same entry give the same text. -/
theorem text_eq_of_entry {i i' : Item} {k : Kind} (h : i.entry k = i'.entry k) :
    i.text k = i'.text k :=
  AttributeTable.text_eq_of_entry h

/-- Items with the same entry agree on whether the attribute is there. -/
theorem has_eq_of_entry {i i' : Item} {k : Kind} (h : i.entry k = i'.entry k) :
    i.has k = i'.has k :=
  congrArg Prod.fst h

/-- The first half of an entry says whether the attribute is there. -/
theorem has_of_entry {i : Item} {k : Kind} {b : Bool} {v : Option AttributeValue}
    (h : i.entry k = (b, v)) : i.has k = b :=
  congrArg Prod.fst h

/-- An entry that holds a number is what reading the number gives. -/
theorem number_of_entry {i : Item} {k : Kind} {b : Bool} {n : Int} (hk : k.isNumber)
    (h : i.entry k = (b, some (.number n))) : i.number k = n :=
  AttributeTable.number_of_entry hk h

/-- An entry that holds a text is what reading the text gives. -/
theorem text_of_entry {i : Item} {k : Kind} {b : Bool} {s : String} (hk : k.isText)
    (h : i.entry k = (b, some (.text s))) : i.text k = s :=
  AttributeTable.text_of_entry hk h

/-- An attribute that is absent reads as 0. -/
theorem number_of_not_has {i : Item} {k : Kind} (h : i.has k = false) : i.number k = 0 :=
  AttributeTable.number_of_not_has h

/-- An attribute that is absent reads as the empty text. -/
theorem text_of_not_has {i : Item} {k : Kind} (h : i.has k = false) : i.text k = "" :=
  AttributeTable.text_of_not_has h

/-! ## §2. Changes of the attributes. -/

/-- Setting a number writes the entry of that kind, if the kind holds numbers, and no other. -/
theorem entry_setNumber (n : Int) :
    (i.setNumber k n).entry j
      = if j = k ∧ k.isNumber then (true, some (.number n)) else i.entry j :=
  AttributeTable.entry_setNumber i.table j k n

/-- What was set is read back, and the numbers of the other kinds stay. -/
theorem number_setNumber (n : Int) :
    (i.setNumber k n).number j = if j = k ∧ k.isNumber then n else i.number j := by
  by_cases h : j = k ∧ k.isNumber
  · rw [if_pos h]
    exact number_of_entry (h.1 ▸ h.2) (by rw [entry_setNumber, if_pos h])
  · rw [if_neg h]
    exact number_eq_of_entry (by rw [entry_setNumber, if_neg h])

/-- No text changes when a number is set. -/
theorem text_setNumber (n : Int) : (i.setNumber k n).text j = i.text j := by
  by_cases hj : j.isText
  · refine text_eq_of_entry ?_
    rw [entry_setNumber, if_neg]
    rintro ⟨rfl, hk⟩
    simp [Kind.isNumber, hj] at hk
  · simp [text, AttributeTable.text, hj]

/-- A count is kept beside the attributes, so setting it changes no number. -/
theorem number_setCount (n : UInt16) : (i.setCount n).number j = i.number j := rfl

/-- Setting a text on the item sets it in its table, also where the empty text is passed over. -/
theorem table_setText (s : String) : (i.setText k s).table = i.table.setText k s := by
  unfold setText
  split
  next h =>
    rw [h]
    simp [AttributeTable.setText]
  next => rfl

/-- Setting a text writes the entry of that kind, unless the text is empty, and no other. -/
theorem entry_setText (s : String) :
    (i.setText k s).entry j
      = if j = k ∧ k.isText ∧ s ≠ "" then (true, some (.text s)) else i.entry j := by
  rw [entry, table_setText, AttributeTable.entry_setText]
  rfl

/-- No number changes when a text is set. -/
theorem number_setText (s : String) : (i.setText k s).number j = i.number j := by
  by_cases hj : j.isNumber
  · refine number_eq_of_entry ?_
    rw [entry_setText, if_neg]
    rintro ⟨rfl, hk, _⟩
    simp [Kind.isNumber, hk] at hj
  · simp [number, AttributeTable.number, hj]

/-- Removing an attribute removes it from the table, also where the item has no table yet. -/
theorem table_remove : (i.remove k).table = i.table.remove k := by
  unfold remove table
  cases i.attributes with
  | none =>
    -- Nothing is removed from the table without entries.
    show AttributeTable.empty = AttributeTable.empty.remove k
    rw [AttributeTable.remove, if_neg]
    show ¬ (0#31).getLsbD k.index = true
    rw [BitVec.getLsbD_zero]
    decide
  | some t => rfl

/-- A removed attribute has no entry any more, and the other entries stay. -/
theorem entry_remove :
    (i.remove k).entry j = if j = k then (false, none) else i.entry j := by
  rw [entry, table_remove, AttributeTable.entry_remove]
  rfl

@[simp] theorem typeId_setNumber (n : Int) : (i.setNumber k n).typeId = i.typeId := rfl
@[simp] theorem count_setNumber (n : Int) : (i.setNumber k n).count = i.count := rfl
@[simp] theorem variant_setNumber (n : Int) : (i.setNumber k n).variant = i.variant := rfl
@[simp] theorem typeId_remove : (i.remove k).typeId = i.typeId := rfl
@[simp] theorem count_remove : (i.remove k).count = i.count := rfl
@[simp] theorem variant_remove : (i.remove k).variant = i.variant := rfl

@[simp] theorem typeId_setText (s : String) : (i.setText k s).typeId = i.typeId := by
  unfold setText
  split <;> rfl

@[simp] theorem count_setText (s : String) : (i.setText k s).count = i.count := by
  unfold setText
  split <;> rfl

@[simp] theorem variant_setText (s : String) : (i.setText k s).variant = i.variant := by
  unfold setText
  split <;> rfl

/-! ## §3. The sub type. -/

/-- The attribute that holds the sub type, unless the count does. -/
def SubTypeMeaning.kind? : SubTypeMeaning → Option Kind
  | .count => none
  | .fluid => some .fluidType
  | .charges => some .charges

/-- The sub type is the entry of fluids or of charges, as the type has it, or no entry at all. -/
theorem entry_setSubType (c : Catalog) (n : UInt16) :
    (i.setSubType c n).entry j
      = if (i.meaning c).kind? = some j then (true, some (.number n.toNat)) else i.entry j := by
  unfold setSubType
  cases i.meaning c with
  -- A count is a field of the item and no entry of its table.
  | count => rfl
  | fluid =>
    show (i.setNumber .fluidType n.toNat).entry j = _
    rw [entry_setNumber]
    simp [SubTypeMeaning.kind?, Kind.isNumber, Kind.isText, eq_comm]
  | charges =>
    show (i.setNumber .charges n.toNat).entry j = _
    rw [entry_setNumber]
    simp [SubTypeMeaning.kind?, Kind.isNumber, Kind.isText, eq_comm]

/-- The sub type is the count where the type stacks, cut to one octet. -/
theorem count_setSubType (c : Catalog) (n : UInt16) :
    (i.setSubType c n).count = if i.meaning c = .count then clampU8 n.toNat else i.count := by
  unfold setSubType
  cases i.meaning c <;> rfl

/-- The sub type of an item is no change of type. -/
@[simp] theorem typeId_setSubType (c : Catalog) (n : UInt16) :
    (i.setSubType c n).typeId = i.typeId := by
  unfold setSubType
  split <;> rfl

@[simp] theorem variant_setSubType (c : Catalog) (n : UInt16) :
    (i.setSubType c n).variant = i.variant := by
  unfold setSubType
  split <;> rfl

/-! ## §4. New items. -/

/-- The number of a kind in a new item of sub type 0. -/
def startNumber (t : ItemType) (k : Kind) : Int :=
  if k = .charges ∧ meaningOf t = .charges then t.charges.toNat
  else if k = .duration then t.duration
  else 0

/-- A type never lasts for a negative time. -/
theorem duration_nonneg (t : ItemType) : 0 ≤ t.duration := by
  unfold ItemType.duration
  omega

/-- An item without attributes has no entries. -/
theorem entry_plain (id : TypeId) (v : Variant) :
    ({ typeId := id, variant := v } : Item).entry k = (false, none) := by
  have hHas : ({ typeId := id, variant := v } : Item).table.has k = false :=
    BitVec.getLsbD_zero
  show (_, AttributeTable.get? _ k) = _
  rw [AttributeTable.get?, hHas]
  rfl

/-- An item without attributes reads 0 everywhere. -/
theorem number_plain (id : TypeId) (v : Variant) :
    ({ typeId := id, variant := v } : Item).number k = 0 :=
  number_of_not_has (has_of_entry (entry_plain k id v))

/-- Started at sub type 0, an item has the charges of its type as its only number so far. -/
theorem number_startSubType_zero (t : ItemType) :
    (({ typeId := t.id, variant := t.variant } : Item).startSubType t 0).number k
      = if k = .charges ∧ meaningOf t = .charges then (t.charges.toNat : Int) else 0 := by
  have hStart := number_plain k t.id t.variant
  unfold startSubType meaningOf
  -- The branches of the first sub type in turn: fluid, stack, key, charges.
  by_cases hFluid : t.holdsFluid
  · simp [hFluid, setFluid, number_setNumber, hStart]
  · by_cases hStack : t.stackable
    · by_cases hCharges : t.charges = 0
      · simp [hFluid, hStack, hCharges, hStart]
      · simp [hFluid, hStack, hCharges, number_setCount, hStart]
    · by_cases hCharges : t.charges = 0
      · by_cases hKey : t.isKey
        · simp [hFluid, hStack, hCharges, hKey, number_setNumber, hStart]
        · simp [hFluid, hStack, hCharges, hKey, hStart]
      · by_cases h : k = .charges
        · simp [hFluid, hStack, hCharges, setCharges, number_setNumber, h, Kind.isNumber,
            Kind.isText]
        · simp [hFluid, hStack, hCharges, setCharges, number_setNumber, hStart, h]

/-- A new item of sub type 0 has its type's charges and its type's duration, and no other number. -/
theorem number_ofType (t : ItemType) : (ofType t 0).number k = startNumber t k := by
  unfold ofType startNumber
  by_cases hDuration : t.duration = 0
  · rw [if_neg (by simpa using hDuration), number_startSubType_zero, hDuration, ite_self]
  · rw [if_pos hDuration, setDuration, number_setNumber, number_startSubType_zero,
      show max t.duration 0 = t.duration from max_eq_left (duration_nonneg t)]
    by_cases h : k = .duration
    · simp [h, Kind.isNumber, Kind.isText]
    · simp [h]

/-- The first sub type of an item is no text. -/
theorem text_startSubType (t : ItemType) (n : UInt16) :
    (i.startSubType t n).text k = i.text k := by
  unfold startSubType
  split_ifs <;> first | rfl | exact text_setNumber i k _ _

/-- A new item says nothing. -/
theorem text_ofType (t : ItemType) (n : UInt16) : (ofType t n).text k = "" := by
  have hPlain : ({ typeId := t.id, variant := t.variant } : Item).text k = "" :=
    text_of_not_has (has_of_entry (entry_plain k t.id t.variant))
  unfold ofType
  split_ifs
  · rw [setDuration, text_setNumber, text_startSubType, hPlain]
  · rw [text_startSubType, hPlain]

@[simp] theorem typeId_startSubType (t : ItemType) (n : UInt16) :
    (i.startSubType t n).typeId = i.typeId := by
  unfold startSubType
  split_ifs <;> rfl

@[simp] theorem variant_startSubType (t : ItemType) (n : UInt16) :
    (i.startSubType t n).variant = i.variant := by
  unfold startSubType
  split_ifs <;> rfl

@[simp] theorem typeId_ofType (t : ItemType) (n : UInt16) : (ofType t n).typeId = t.id := by
  unfold ofType
  split_ifs <;> simp [setDuration]

@[simp] theorem variant_ofType (t : ItemType) (n : UInt16) : (ofType t n).variant = t.variant := by
  unfold ofType
  split_ifs <;> simp [setDuration]

/-- A new item of sub type 0 counts one, or the charges of a type that stacks. -/
theorem count_ofType_zero (t : ItemType) :
    (ofType t 0).count
      = if !t.holdsFluid && t.stackable && t.charges != 0 then clampU8 t.charges.toNat else 1 := by
  have hDuration : ∀ i : Item, (if t.duration ≠ 0 then i.setDuration t.duration else i).count
      = i.count := by
    intro i
    split_ifs <;> rfl
  show (if t.duration ≠ 0 then _ else _ : Item).count = _
  rw [hDuration]
  unfold startSubType
  -- Only a stack of a type with charges has a count of its own.
  by_cases hFluid : t.holdsFluid
  · simp [hFluid, setFluid]
  · by_cases hStack : t.stackable
    · by_cases hCharges : t.charges = 0
      · simp [hFluid, hStack, hCharges]
      · simp [hFluid, hStack, hCharges, setCount]
    · by_cases hCharges : t.charges = 0
      · by_cases hKey : t.isKey <;> simp [hFluid, hStack, hCharges, hKey]
      · simp [hFluid, hStack, hCharges, setCharges]

/-! ## §5. Change of type. -/

/-- The type stays when the attributes of decay are renewed. -/
theorem typeId_renewDecay (t : ItemType) (stoodStill : Bool) :
    (i.renewDecay t stoodStill).typeId = i.typeId := by
  unfold renewDecay
  dsimp only
  split_ifs <;> rfl

/-- An item that becomes a type is of that type, known or not. -/
theorem typeId_become (c : Catalog) (newType : TypeId) : (i.become c newType).typeId = newType := by
  unfold become
  cases c.get? newType with
  | none => rfl
  | some t =>
    dsimp only
    split_ifs <;> exact typeId_renewDecay _ t _

/-- An item that gets another type keeps its variant, or starts anew as one of another kind. -/
theorem variant_become (c : Catalog) (newType : TypeId) :
    (i.become c newType).variant = i.variant
      ∨ ∃ t, c.get? newType = some t ∧ i.variant.sameKind t.variant = false
        ∧ (i.become c newType).variant = t.variant := by
  unfold become
  cases hType : c.get? newType with
  | none => exact .inl rfl
  | some t =>
    have hVariant : ∀ stoodStill, (({ i with typeId := newType } : Item).renewDecay t
        stoodStill).variant = i.variant := by
      intro stoodStill
      unfold renewDecay
      dsimp only
      split_ifs <;> rfl
    dsimp only
    split_ifs with hSame
    · exact .inl (hVariant _)
    · -- Another kind starts anew.
      rw [hVariant] at hSame
      exact .inr ⟨t, rfl, Bool.eq_false_iff.2 hSame, rfl⟩

end Item

/-! ## §6. Time that runs. -/

/-- The type says something about decay: how long it takes, that the time stands still, or what
comes of it. -/
def ItemType.KnowsDecay (t : ItemType) : Prop :=
  t.duration ≠ 0 ∨ t.stopTime = true ∨ t.decayTo.isSome = true

instance (t : ItemType) : Decidable t.KnowsDecay :=
  inferInstanceAs (Decidable (t.duration ≠ 0 ∨ t.stopTime = true ∨ t.decayTo.isSome = true))

/-- The attributes of decay are dropped exactly for a type that knows nothing of decay. -/
theorem ItemType.not_knowsDecay_iff {t : ItemType} :
    ¬ t.KnowsDecay ↔ (decide (t.duration = 0) && !t.stopTime && t.decayTo.isNone) = true := by
  unfold KnowsDecay
  rw [not_or, not_or, not_not, Bool.not_eq_true, Bool.not_eq_true, Option.isSome_eq_false_iff,
    Bool.and_eq_true, Bool.and_eq_true, decide_eq_true_iff, Bool.not_eq_true', and_assoc]

namespace Item

variable {c : Catalog} {i i' : Item} {t : ItemType}

/-- The state of decay depends on its entry alone. -/
theorem decayState_eq_of_entry (h : i'.entry .decayState = i.entry .decayState) :
    i'.decayState = i.decayState :=
  congrArg DecayState.ofNumber (number_eq_of_entry h)

/-- Time that passes neither starts nor ends. -/
theorem decayState_increase (i : Item) (n : Int) :
    (i.increase .duration n).decayState = i.decayState := by
  refine decayState_eq_of_entry ?_
  show (i.setNumber .duration _).entry .decayState = _
  rw [entry_setNumber, if_neg (by decide)]

/-- Whether the time of an item stands still, because its type says so. -/
def standsStill (c : Catalog) (i : Item) : Bool :=
  ((c.get? i.typeId).map (·.stopTime)).getD false

/-- An item that becomes one of type `t` starts with the time of that type. -/
def StartsAnew (c : Catalog) (i : Item) (t : ItemType) : Prop :=
  0 < t.duration ∧ (i.standsStill c = false ∨ i.has .duration = false)

instance (c : Catalog) (i : Item) (t : ItemType) : Decidable (i.StartsAnew c t) :=
  inferInstanceAs (Decidable (_ ∧ _))

/-- **What an item has once it has another type.**  The owner of a corpse is forgotten; time is
forgotten, starts anew or goes on; all else stays. -/
theorem entry_become (i : Item) {newType : TypeId} (hType : c.get? newType = some t) (k : Kind) :
    (i.become c newType).entry k
      = if k = .corpseOwner then (false, none)
        else if k ≠ .duration ∧ k ≠ .decayState then i.entry k
        else if ¬ t.KnowsDecay then (false, none)
        else if i.StartsAnew c t then
          (true, some (.number (if k = .duration then t.duration else 0)))
        else i.entry k := by
  -- The variant is renewed last, and no entry is written by that.
  have hEntry : (i.become c newType).entry k
      = (({ i with typeId := newType } : Item).renewDecay t (i.standsStill c)).entry k := by
    unfold become
    rw [hType]
    dsimp only
    split_ifs <;> rfl
  have hPlain : ∀ k, (({ i with typeId := newType } : Item).remove .corpseOwner).entry k
      = if k = .corpseOwner then (false, none) else i.entry k :=
    fun k => entry_remove { i with typeId := newType } k .corpseOwner
  rw [hEntry]
  unfold renewDecay
  by_cases hKnows : t.KnowsDecay
  · have hStays : ¬ (decide (t.duration = 0) && !t.stopTime && t.decayTo.isNone) = true :=
      fun h => ItemType.not_knowsDecay_iff.2 h hKnows
    -- Whether there is a duration is asked after the owner of the corpse is gone.
    have hHas : (({ i with typeId := newType } : Item).remove .corpseOwner).has .duration
        = i.has .duration := has_eq_of_entry (hPlain .duration)
    rw [if_neg hStays]
    dsimp only
    rw [hHas]
    by_cases hAnew : i.StartsAnew c t
    · have hStarts :
          (decide (t.duration > 0) && (!i.standsStill c || !i.has .duration)) = true := by
        simpa [StartsAnew] using hAnew
      rw [if_pos hStarts, setDuration, entry_setNumber, setDecayState, entry_setNumber, hPlain,
        max_eq_left (duration_nonneg t)]
      cases k <;> simp [hKnows, hAnew, Kind.isNumber, Kind.isText, DecayState.number]
    · have hGoesOn :
          ¬ (decide (t.duration > 0) && (!i.standsStill c || !i.has .duration)) = true := by
        simpa [StartsAnew] using hAnew
      rw [if_neg hGoesOn, hPlain]
      cases k <;> simp [hKnows, hAnew]
  · -- A type that knows nothing of decay has no time to start with.
    have hZero : t.duration = 0 := by
      by_contra h
      exact hKnows (.inl h)
    rw [if_pos (ItemType.not_knowsDecay_iff.1 hKnows)]
    dsimp only
    rw [if_neg (by simp [hZero]), entry_remove, entry_remove, entry_remove]
    cases k <;> simp [hKnows]
    all_goals rfl

/-- A change of type writes the owner of a corpse and the two attributes of decay, and no other
entry. -/
theorem entry_become_other (i : Item) {newType : TypeId} (hType : c.get? newType = some t) {k : Kind}
    (hOwner : k ≠ .corpseOwner) (hTime : k ≠ .duration) (hState : k ≠ .decayState) :
    (i.become c newType).entry k = i.entry k := by
  rw [entry_become i hType, if_neg hOwner, if_pos ⟨hTime, hState⟩]

/-- What an item has of time goes on when it becomes one of type `t`: the type knows of decay, and
has no time of its own, or the time of the item stood still. -/
def GoesOn (c : Catalog) (i : Item) (t : ItemType) : Prop :=
  t.KnowsDecay ∧ (t.duration = 0 ∨ i.standsStill c = true)

instance (c : Catalog) (i : Item) (t : ItemType) : Decidable (i.GoesOn c t) :=
  inferInstanceAs (Decidable (_ ∧ _))

/-- **The time of an item goes on, starts anew or is forgotten** when the item gets another type. -/
theorem entry_become_time (i : Item) {newType : TypeId} (hType : c.get? newType = some t)
    (hHas : i.has .duration = true) {k : Kind} (hk : k = .duration ∨ k = .decayState) :
    (i.become c newType).entry k
      = if i.GoesOn c t then i.entry k
        else if t.KnowsDecay then
          (true, some (.number (if k = .duration then t.duration else 0)))
        else (false, none) := by
  have hOwner : k ≠ .corpseOwner := by rcases hk with rfl | rfl <;> decide
  have hOther : ¬ (k ≠ .duration ∧ k ≠ .decayState) := fun h => hk.elim h.1 h.2
  have hNonneg := duration_nonneg t
  rw [entry_become i hType, if_neg hOwner, if_neg hOther]
  by_cases hKnows : t.KnowsDecay
  · rw [if_neg (not_not.2 hKnows), if_pos hKnows]
    -- Going on and starting anew exclude each other, and one of them is the case.
    by_cases hGoes : i.GoesOn c t
    · have hNot : ¬ i.StartsAnew c t := by
        rintro ⟨hPos, hMoves | hNone⟩
        · rcases hGoes.2 with hZero | hStill
          · omega
          · rw [hStill] at hMoves
            cases hMoves
        · rw [hHas] at hNone
          cases hNone
      rw [if_neg hNot, if_pos hGoes]
    · have hAnew : i.StartsAnew c t := by
        have hBoth : ¬ (t.duration = 0 ∨ i.standsStill c = true) := fun h => hGoes ⟨hKnows, h⟩
        rw [not_or, Bool.not_eq_true] at hBoth
        exact ⟨by omega, .inl hBoth.2⟩
      rw [if_pos hAnew, if_neg hGoes]
  · rw [if_pos hKnows, if_neg (fun h => hKnows h.1), if_neg hKnows]

/-- **Time runs only for items whose type knows of decay**, as far as getting the type is
concerned. -/
theorem knowsDecay_of_become {newType : TypeId} (hType : c.get? newType = some t)
    (hRuns : (i.become c newType).decayState = .running) : t.KnowsDecay := by
  by_contra hNot
  have hState := entry_become i hType .decayState
  rw [if_neg (by decide), if_neg (by decide), if_pos hNot] at hState
  rw [decayState, number_of_not_has (has_of_entry hState)] at hRuns
  cases hRuns

end Item

end Homestead
