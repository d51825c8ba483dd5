/-
  Homestead.Proofs.Record.NormalForm
  ──────────────────────────────────
  **ONE PASS OF READING AND WRITING REACHES A NORMAL FORM.**

  The same item may be stored as many strings of octets: its fields may
  stand in any order and more than once, have the value nought, hold texts
  that are no text, and its contents may be missing or have types that
  nobody knows.  None of that survives one pass.  What the item is written
  as then is read in full, and the item that is built from it is written as
  the same octets again.

  The reason is told field by field.  An item that was built from a record
  has all that a new item of its type has, so what it is written without, a
  new item does not have either; and what it is written with comes back as
  it was written.

  Main results:
    * `fromFields_newItem?`, `asRead_givenByReading` — what items have that
      were built from a record;
    * `payload?_rebuilt`, `fields_rebuilt` — a second pass writes the same
      fields;
    * `encode_normal_form` — and the same octets.
-/
import Homestead.Proofs.Record.Decoded
import Homestead.Proofs.Record.RoundTrip

open Homestead.Stream

namespace Homestead

open Record

/-! ## §1. Items that were built from a record. -/

/-- What sets an item of type `t` that was built from fields apart from other items of the type. -/
structure Item.FromFields (t : ItemType) (i : Item) : Prop where
  /-- It has all that a new item has. -/
  has : ∀ k, (Item.ofType t 0).has k = true → i.has k = true
  /-- Its time does not run yet. -/
  still : i.decayState ≠ .running
  /-- Charges are its sub type, or it has none. -/
  charges : Item.meaningOf t ≠ .charges → i.number .charges = 0

namespace Item

variable {c : Catalog} {t : ItemType} {i : Item}

/-- An update takes no attribute away. -/
theorem has_apply {k : Kind} (u : Update) (h : i.has k = true) : (i.apply c u).has k = true := by
  have hEntry := entry_apply c i u k
  cases hWrites : u.entry? (i.meaning c) with
  | none =>
    rw [hWrites] at hEntry
    rw [has_eq_of_entry hEntry]
    exact h
  | some e =>
    rw [hWrites] at hEntry
    dsimp only at hEntry
    -- The attribute is written anew, or it is another one that is written.
    by_cases hk : k = e.1
    · rw [if_pos hk] at hEntry
      exact has_of_entry hEntry
    · rw [if_neg hk] at hEntry
      rw [has_eq_of_entry hEntry]
      exact h

/-- An attribute that is there stays there while others are applied. -/
theorem has_applyAll {k : Kind} (us : List Update) (h : i.has k = true) :
    (i.applyAll c us).has k = true := by
  induction us generalizing i with
  | nil => exact h
  | cons u us ih => exact ih (has_apply u h)

/-- Fields write charges only where charges are the sub type. -/
theorem entryWrites_charges {m : SubTypeMeaning} {tag : Tag} {u : Update} (h : tag.Makes u)
    (hm : m ≠ .charges) : entryWrites m .charges u = none := by
  cases he : entryWrites m .charges u with
  | none => rfl
  | some e =>
    obtain ⟨v, hv, _⟩ := entryWrites_eq_some.1 he
    have hTarget := h.target? hv
    rcases Tag.target?_eq_some hTarget with hTag | ⟨_, rfl | rfl | rfl⟩
    · cases hTag
    -- The tag is that of the sub type, and what it writes depends on the type.
    all_goals
      refine absurd ?_ hm
      cases m <;> first | rfl | cases hTarget

/-- **A new item to which fields are made.** -/
theorem fromFields_applyAll (hType : c.get? t.id = some t) (us : List Update)
    (hus : ∀ u ∈ us, ∃ tag : Tag, tag.Makes u) : ((ofType t 0).applyAll c us).FromFields t where
  has k h := has_applyAll us h
  still := by
    rcases decayState_applyAll c (ofType t 0) hus with hState | hState
    · rw [hState, decayState, number_ofType]
      show DecayState.ofNumber 0 ≠ .running
      decide
    · rw [hState]
      decide
  -- Only a field of charges or the sort of the item write charges, and the sort is another.
  charges hm := by
    have hSpared := (sees_entry (c := c) ((ofType t 0).meaning c) .charges).of_spared us (by
      intro u hu
      obtain ⟨tag, hMakes⟩ := hus u hu
      rw [meaning_ofType hType]
      exact entryWrites_charges hMakes hm)
    rw [number_eq_of_entry hSpared, number_ofType, startNumber, if_neg fun h => hm h.2,
      if_neg (by decide)]

end Item

namespace Record

variable {c : Catalog}

/-- The new item of a record that was read is one that was built from fields. -/
theorem fromFields_newItem? {id : TypeId} {known : Bool} {host : Option Variant} {fs : List Field}
    {children : Option (List Record)} {item : Item}
    (h : newItem? c (mk id known (fs.filterMap (Field.update? host)) children) = some item) :
    ∀ t, c.get? item.typeId = some t → item.FromFields t := by
  obtain ⟨t, ht, rfl⟩ := newItem?_eq_some h
  have hGet := Catalog.get?_of_usable? ht
  have hOwn : c.get? t.id = some t := by rw [Catalog.id_of_get? hGet, hGet]
  intro t' ht'
  rw [Item.typeId_applyAll, Item.typeId_ofType, hOwn] at ht'
  obtain rfl := Option.some_inj.1 ht'
  exact Item.fromFields_applyAll hOwn _ (Field.exists_makes host fs)

end Record

/-- An item that was built from a record, with what it holds: it can be stored, and it was built
from fields. -/
structure Item.AsRead (c : Catalog) (i : Item) (contents : List ItemTree) : Prop where
  /-- It can be stored. -/
  storable : i.Storable c contents
  /-- It was built from fields. -/
  fromFields : ∀ t, c.get? i.typeId = some t → i.FromFields t

namespace Record

/-- The item of a record that was read, with contents that were built for it. -/
theorem asRead_newItem? {c : Catalog} {id : TypeId} {known : Bool} {host : Option Variant}
    {fs : List Field} {children : Option (List Record)} {item : Item} {trees : List ItemTree}
    (h : newItem? c (mk id known (fs.filterMap (Field.update? host)) children) = some item)
    (hHollow : trees ≠ [] → item.isContainer = true) (hCounted : trees.length < 4294967296) :
    item.AsRead c trees where
  storable := by
    refine ⟨usable_newItem? h, ?_, fun _ => hCounted⟩
    intro hNot
    by_contra hSome
    exact hNot (hHollow hSome)
  fromFields := fromFields_newItem? h

/-- **Every item of a tree that is built from a record that was read** is one that was built from
fields and can be stored. -/
theorem asRead_givenByReading (c : Catalog) : GivenByReading c fun rec =>
    ∀ t, (rec.build c).1 = .ok (some t) → t.Every (Item.AsRead c) where
  ended typeId fs := by
    intro t hBuilt
    obtain ⟨item, trees, hNew, rfl, ⟨_, rfl⟩ | ⟨rs, hSome, _⟩⟩ := build_eq_ok hBuilt
    · exact ⟨asRead_newItem? hNew (fun h => absurd rfl h) (by decide), trivial⟩
    · cases hSome
  holding typeId fs children _ hCount hChildren := by
    intro t hBuilt
    obtain ⟨item, trees, hNew, rfl, ⟨hNone, _⟩ | ⟨rs, hSome, hHolds, hTrees⟩⟩ := build_eq_ok hBuilt
    · cases hNone
    · obtain rfl := Option.some_inj.1 hSome
      -- There may be fewer items than records, because some of them give no item.
      have hLength := length_le_of_buildAll hTrees
      refine ⟨asRead_newItem? hNew (fun _ => hHolds) (by omega), ItemTree.everyOf_iff.2 ?_⟩
      intro tree hMem
      obtain ⟨r, hr, hTree⟩ := exists_of_mem_buildAll hTrees tree hMem
      exact hChildren r hr tree hTree

/-- Only a record that makes no new item is passed over. -/
theorem newItem?_eq_none_of_build {c : Catalog} {id : TypeId} {known : Bool} {us : List Update}
    {children : Option (List Record)} (h : ((mk id known us children).build c).1 = .ok none) :
    newItem? c (mk id known us none) = none := by
  cases hNew : newItem? c (mk id known us none) with
  | none => rfl
  | some item =>
    rw [build, hNew] at h
    cases children with
    | none => cases h
    -- With a new item the record is built, or it fails; it is not passed over.
    | some rs =>
      dsimp only at h
      split_ifs at h
      revert h
      cases (buildAll c rs).1 with
      | error e => exact fun h => by cases h
      | ok trees => exact fun h => by cases h

/-- A record that was read is built, if its type can be used. -/
theorem build_of_decode {c : Catalog} {r r' : Reader} {rec : Record}
    (h : decode c r = .ok (rec, r')) (hKnown : rec.known = true) :
    ∃ t tally, rec.build c = (.ok (some t), tally) := by
  have hFits := fits_of_decode h
  obtain ⟨o, tally, hBuilt⟩ := build_of_fits rec hFits
  cases o with
  | some t => exact ⟨t, tally, hBuilt⟩
  -- Passed over would mean that the type cannot be used, which it can.
  | none =>
    obtain ⟨id, known, us, children⟩ := rec
    have hNone := newItem?_eq_none_of_build (congrArg Prod.fst hBuilt)
    have hUsable : (c.usable? id).isSome = true := hFits.known_eq.symm.trans hKnown
    obtain ⟨t, ht⟩ := Option.isSome_iff_exists.1 hUsable
    obtain rfl : known = true := hKnown
    simp [newItem?, Item.create?, Record.known, Record.typeId, ht] at hNone

end Record

/-! ## §2. A second pass writes the same fields. -/

/-! Cutting to a range or to the length of a text does nothing the second time. -/

/-- A number that is cut to a range is in it. -/
theorem clamp_clamp (low high n : Int) : clamp low high (clamp low high n) = clamp low high n := by
  unfold clamp
  omega

theorem clampU8_clamp (n : Int) : clampU8 (clamp 0 255 n) = clampU8 n := by
  rw [clampU8, clampU8, clamp_clamp]

theorem clampU16_clamp (n : Int) : clampU16 (clamp 0 65535 n) = clampU16 n := by
  rw [clampU16, clampU16, clamp_clamp]

theorem clampU32_clamp (n : Int) : clampU32 (clamp 0 4294967295 n) = clampU32 n := by
  rw [clampU32, clampU32, clamp_clamp]

namespace Item

variable {c : Catalog} {t : ItemType} {i : Item}

/-- A text that is clipped is written as it was. -/
theorem givenText_clip (s : String) :
    givenText (String.ofList (Text.clip 65535 s.toList)) = givenText s := by
  by_cases hEmpty : s = ""
  · rw [hEmpty]
    rfl
  · have hSome : String.ofList (Text.clip 65535 s.toList) ≠ "" := fun h => hEmpty (clip_eq_nil h)
    have hTwice : Datum.text (String.ofList (Text.clip 65535 s.toList)) = Datum.text s := by
      unfold Datum.text
      rw [String.toList_ofList, Text.clip_eq_self (Text.clip_isLongestFit 65535 s.toList).fits]
    rw [givenText, givenText, hTwice, bne_iff_ne.2 hSome, bne_iff_ne.2 hEmpty]

/-- A text that came back is written as it was. -/
theorem payload?_rebuilt_of_text {tag : Tag} {k : Kind} (hKind : tag.kind? = some k)
    (hk : k.isText) : (i.rebuilt c t).payload? c tag = i.payload? c tag := by
  rw [payload?_text c _ hKind hk, payload?_text c _ hKind hk, text_rebuilt_eq hk, givenText_clip]

/-- An attribute that is written whenever it is there is there again just if it was. -/
theorem has_rebuilt {k : Kind} {tag : Tag} {d : Datum} {n : Int} (hFrom : i.FromFields t)
    (hTag : k.tag? = some tag) (hKind : tag.kind? = some k) (hk : k.isNumber)
    (hPayload : i.payload? c tag = given (i.has k) [d]) (hd : numberOf? d = some n) :
    (i.rebuilt c t).has k = i.has k := by
  cases hHas : i.has k with
  | true =>
    rw [hHas] at hPayload
    refine has_of_entry (entry_rebuilt_of_field hTag hPayload (Field.update?_number hKind hd) ?_)
      (v := some (.number n))
    show (if k.isNumber then _ else _) = _
    rw [if_pos hk]
  | false =>
    rw [hHas] at hPayload
    have hOwn : k ≠ .charges ∧ k ≠ .fluidType := by
      refine ⟨?_, ?_⟩ <;> (rintro rfl; cases hTag)
    have hEntry := entry_rebuilt_of_absent (c := c) (t := t) (i := i) hOwn.1 hOwn.2 (by
      intro tag' hTag'
      rw [Option.some_inj.1 (hTag'.symm.trans hTag), hPayload]
      rfl)
    rw [has_eq_of_entry hEntry]
    -- A new item does not have it either, or the item would.
    cases hNew : (ofType t 0).has k with
    | false => rfl
    | true => exact absurd (hFrom.has k hNew) (by rw [hHas]; decide)

/-- What is written of a number whenever the item has it. -/
theorem payload?_rebuilt_of_has {k : Kind} {tag : Tag} {low high : Int} (d : Int → Datum)
    (hFrom : i.FromFields t) (hTag : k.tag? = some tag) (hKind : tag.kind? = some k)
    (hRange : k.range? = some (low, high))
    (hPayload : ∀ j : Item, j.payload? c tag = given (j.has k) [d (j.number k)])
    (hd : ∀ n, numberOf? (d n) = some (clamp low high n))
    (hCut : ∀ n, d (clamp low high n) = d n) :
    (i.rebuilt c t).payload? c tag = i.payload? c tag := by
  have hNumber : k.isNumber := by cases k <;> first | rfl | cases hRange
  rw [hPayload, hPayload, has_rebuilt hFrom hTag hKind hNumber (hPayload i) (hd _),
    number_rebuilt hRange, hCut]

/-- What is written of a number unless it is nought. -/
theorem payload?_rebuilt_of_bonus {k : Kind} {tag : Tag} (hRange : k.range? = some (0, 65535))
    (hPayload : ∀ j : Item, j.payload? c tag
      = given (clampU16 (j.number k) != 0) [.u16 (clampU16 (j.number k))]) :
    (i.rebuilt c t).payload? c tag = i.payload? c tag := by
  rw [hPayload, hPayload, number_rebuilt hRange, clampU16_clamp]

/-- What scripts attach, which is written for items that move. -/
theorem payload?_rebuilt_of_script {k : Kind} {tag : Tag} (hType : c.get? i.typeId = some t)
    (hk : k = .actionId ∨ k = .movementId)
    (hPayload : ∀ j : Item, j.payload? c tag
      = given (j.isMoveable c && clampU16 (j.number k) != 0) [.u16 (clampU16 (j.number k))]) :
    (i.rebuilt c t).payload? c tag = i.payload? c tag := by
  have hMoves : i.isMoveable c = t.moveable := by rw [isMoveable, hType]; rfl
  have hMoves' : (i.rebuilt c t).isMoveable c = t.moveable := by
    rw [isMoveable, typeId_rebuilt hType, hType]
    rfl
  rw [hPayload, hPayload, hMoves, hMoves', script_rebuilt hk hType]
  by_cases hMoveable : t.moveable
  · rw [if_pos hMoveable, clampU16_clamp]
  · rw [Bool.eq_false_iff.2 hMoveable]
    rfl

/-- The count of a stack or a fluid. -/
theorem payload?_rebuilt_count (hType : c.get? i.typeId = some t) (hFrom : i.FromFields t) :
    (i.rebuilt c t).payload? c .count = i.payload? c .count := by
  have hCounted : (i.rebuilt c t).isCounted c = i.isCounted c := by
    rw [isCounted, isCounted, typeId_rebuilt hType]
  show given _ [.u8 (clampU8 ((i.rebuilt c t).subType c).toNat)]
    = given _ [.u8 (clampU8 (i.subType c).toNat)]
  rw [hCounted, subType_rebuilt hType]
  have hMeaning : i.meaning c = meaningOf t := by rw [meaning, hType]; rfl
  cases hWritten : i.isCounted c with
  | false => rfl
  | true =>
    rw [isCounted, hType] at hWritten
    have hGroup : (t.stackable || t.holdsFluid) = true := hWritten
    -- The sub type of what is counted is no number of charges, so there are no charges.
    have hOther : meaningOf t ≠ .charges := by
      unfold meaningOf
      cases hFluid : t.holdsFluid <;> cases hStack : t.stackable <;> simp_all
    have hNone : i.charges = 0 := by rw [charges, hFrom.charges hOther]; rfl
    rw [storedSubType, if_neg (not_not.2 hNone), subType, hMeaning]
    cases hm : meaningOf t with
    | charges => exact absurd hm hOther
    | fluid =>
      show given true [.u8 (clampU8 (clampU8 i.fluid.toNat).toUInt16.toNat)] = _
      rw [clampU8_toUInt16]
    | count =>
      -- A fluid is no count, so what is counted is a stack.
      have hStack : t.stackable = true := by
        unfold meaningOf at hm
        cases hFluid : t.holdsFluid <;> simp_all
      rw [hStack]
      rfl

/-- Charges, which are the sub type or nothing. -/
theorem payload?_rebuilt_charges (hType : c.get? i.typeId = some t) (hFrom : i.FromFields t)
    (hCharged : meaningOf t = .charges → i.charges ≠ 0) :
    (i.rebuilt c t).payload? c .charges = i.payload? c .charges := by
  suffices hSame : (i.rebuilt c t).charges = i.charges by
    show given ((i.rebuilt c t).charges != 0) [.u16 (i.rebuilt c t).charges] = _
    rw [hSame]
    rfl
  -- Charges that are not the sub type are 0 in an item that was built from fields.
  by_cases hm : meaningOf t = .charges
  · have hMeaning : (i.rebuilt c t).meaning c = .charges := by
      rw [meaning, typeId_rebuilt hType, hType, ← hm]
      rfl
    have hSubType := subType_rebuilt hType
    rw [subType, hMeaning] at hSubType
    rw [storedSubType, if_pos (hCharged hm), if_neg (by rw [hm]; decide)] at hSubType
    exact hSubType
  · have hKind : (meaningOf t).kind? ≠ some .charges := by
      intro hk
      refine hm ?_
      cases hOther : meaningOf t <;> rw [hOther] at hk <;> first | rfl | cases hk
    rw [charges, charges, hFrom.charges hm, number_rebuilt_of_meaning (.inl rfl) hType hKind]

/-- The time, which is written whenever there is one. -/
theorem payload?_rebuilt_duration (hFrom : i.FromFields t) :
    (i.rebuilt c t).payload? c .duration = i.payload? c .duration := by
  have hEntry : (i.rebuilt c t).entry .duration = if i.has .duration = true then
      (true, some (.number (clamp 0 2147483647 (i.number .duration))))
      else (ofType t 0).entry .duration := entry_applyAll_duration (ofType t 0)
  show given ((i.rebuilt c t).has .duration)
      [.i32 (Int32.ofInt (clamp 0 2147483647 ((i.rebuilt c t).number .duration)))]
    = given (i.has .duration) [.i32 (Int32.ofInt (clamp 0 2147483647 (i.number .duration)))]
  cases hHas : i.has .duration with
  | true =>
    rw [if_pos hHas] at hEntry
    have hTime : (i.rebuilt c t).has .duration = true := has_of_entry hEntry
    have hNumber : (i.rebuilt c t).number .duration = clamp 0 2147483647 (i.number .duration) :=
      number_of_entry rfl hEntry
    rw [hTime, hNumber, clamp_clamp]
  | false =>
    rw [if_neg (by rw [hHas]; decide)] at hEntry
    have hTime : (i.rebuilt c t).has .duration = (ofType t 0).has .duration :=
      has_eq_of_entry hEntry
    -- A new item does not have a time either, or the item would.
    cases hNew : (ofType t 0).has .duration with
    | false =>
      rw [hTime, hNew, given_false, given_false]
    | true => exact absurd (hFrom.has .duration hNew) (by rw [hHas]; decide)

/-- **What is written under a name is written under it the second time**, if the item has charges
where its type has some. -/
theorem payload?_rebuilt (hType : c.get? i.typeId = some t)
    (hKind : i.variant.sameKind t.variant = true) (hFrom : i.FromFields t)
    (hCharged : meaningOf t = .charges → i.charges ≠ 0) (tag : Tag) :
    (i.rebuilt c t).payload? c tag = i.payload? c tag := by
  have hVariant : (i.rebuilt c t).variant = i.variant.stored := variant_rebuilt hKind
  cases tag
  case count => exact payload?_rebuilt_count hType hFrom
  case charges => exact payload?_rebuilt_charges hType hFrom hCharged
  case actionId => exact payload?_rebuilt_of_script hType (.inl rfl) fun _ => rfl
  case movementId => exact payload?_rebuilt_of_script hType (.inr rfl) fun _ => rfl
  case text | writer | description | name | article | pluralName =>
    exact payload?_rebuilt_of_text rfl rfl
  case shootRange | missileEffect =>
    exact payload?_rebuilt_of_has (fun n => .u8 (clampU8 n)) hFrom rfl rfl rfl (fun _ => rfl)
      (fun n => congrArg some (toNat_clampU8 n)) fun n => congrArg Datum.u8 (clampU8_clamp n)
  case attack | defense | armor =>
    exact payload?_rebuilt_of_has
      (fun n => .i32 (Int32.ofInt (clamp (-2147483648) 2147483647 n))) hFrom rfl rfl rfl
      (fun _ => rfl) (fun n => congrArg some (toInt_ofInt_clamp n (by decide) (by decide)))
      fun n => congrArg (fun m => Datum.i32 (Int32.ofInt m)) (clamp_clamp _ _ n)
  case keyNumber | keyholeNumber | doorLevel | doorQuestNumber | doorQuestValue
      | chestQuestNumber =>
    exact payload?_rebuilt_of_has (fun n => .u16 (clampU16 n)) hFrom rfl rfl rfl (fun _ => rfl)
      (fun n => congrArg some (toNat_clampU16 n)) fun n => congrArg Datum.u16 (clampU16_clamp n)
  case lifeLeech | manaLeech | critical | reflection =>
    exact payload?_rebuilt_of_bonus rfl fun _ => rfl
  case weight =>
    exact payload?_rebuilt_of_has (fun n => .u32 (clampU32 n)) hFrom rfl rfl rfl (fun _ => rfl)
      (fun n => congrArg some (toNat_clampU32 n)) fun n => congrArg Datum.u32 (clampU32_clamp n)
  case writtenDate =>
    show given ((i.rebuilt c t).writtenDate != 0) [.u32 (i.rebuilt c t).writtenDate]
      = given (i.writtenDate != 0) [.u32 i.writtenDate]
    rw [writtenDate, number_rebuilt rfl, clampU32_clamp]
    rfl
  case duration =>
    exact payload?_rebuilt_duration hFrom
  case decayState =>
    -- The time of neither item runs.
    have hState : (i.rebuilt c t).decayState = i.decayState := by
      rw [decayState_rebuilt]
      cases h : i.decayState with
      | running => exact absurd h hFrom.still
      | _ => rfl
    show given ((i.rebuilt c t).decayState != .idle)
      [.u8 (UInt8.ofNat (i.rebuilt c t).decayState.number)] = _
    rw [hState]
    rfl
  case doorId =>
    have hDoor : (i.rebuilt c t).isDoor = i.isDoor := by
      rw [isDoor, hVariant, isDoor]
      exact Variant.isDoor_stored i.variant
    show given ((i.rebuilt c t).isDoor && (i.rebuilt c t).doorId != 0)
      [.u8 (i.rebuilt c t).doorId] = given (i.isDoor && i.doorId != 0) [.u8 i.doorId]
    rw [hDoor, doorId, doorId_rebuilt hKind]
    cases hIs : i.isDoor with
    | true =>
      rw [if_pos rfl, clampU8_clamp]
      rfl
    | false => rfl
  case sleeper | sleepStart =>
    unfold payload?
    rw [hVariant]
    cases i.variant with
    | bed house sleeper start =>
      by_cases hSleeper : sleeper = 0
      · -- Of an empty bed nothing is written, not even since when.
        subst hSleeper
        rfl
      · rw [Variant.stored, if_neg hSleeper]
    | _ => rfl
  case destination =>
    unfold payload?
    rw [hVariant]
    cases i.variant with
    | bed house sleeper start =>
      -- A bed leads nowhere, whether it comes back with a sleeper or without.
      by_cases hSleeper : sleeper = 0
      · rw [Variant.stored, if_pos hSleeper]
      · rw [Variant.stored, if_neg hSleeper]
    | _ => rfl
  case depotId | runeCharges =>
    show (none : Option (List Datum)) = none
    rfl

/-- **The head is written again as it was.** -/
theorem headOctets_rebuilt (hType : c.get? i.typeId = some t)
    (hKind : i.variant.sameKind t.variant = true) (hFrom : i.FromFields t)
    (hCharged : meaningOf t = .charges → i.charges ≠ 0) :
    (i.rebuilt c t).headOctets c = i.headOctets c := by
  have hFields : (i.rebuilt c t).fields c = i.fields c := by
    have hField : (i.rebuilt c t).field? c = i.field? c := by
      funext tag
      rw [field?, field?, payload?_rebuilt hType hKind hFrom hCharged]
    rw [fields_eq_flatMap, fields_eq_flatMap, hField]
  rw [headOctets, headOctets, hFields, typeId_rebuilt hType]

/-- The item has charges, if its sub type is its charges. -/
def Charged (c : Catalog) (i : Item) : Prop :=
  i.meaning c = .charges → i.charges ≠ 0

instance (c : Catalog) (i : Item) : Decidable (i.Charged c) :=
  inferInstanceAs (Decidable (_ → _))

/-- `new` is written like `old`. -/
structure WrittenAlike (c : Catalog) (old new : Item) : Prop where
  /-- The octets up to the contents are the same. -/
  head : new.headOctets c = old.headOctets c
  /-- Contents follow for both or for neither. -/
  holds : new.isContainer = old.isContainer

/-- What is built from the fields of an item that was read is written like it. -/
theorem RebuiltAs.writtenAlike {contents : List ItemTree} {j : Item} (h : i.RebuiltAs c j)
    (hRead : i.AsRead c contents) (hCharged : i.Charged c) : i.WrittenAlike c j := by
  obtain ⟨t, hType, hKind, hNew⟩ := h.exists_type hRead.storable
  have hGet := Catalog.get?_of_usable? hType
  have hMeaning : i.meaning c = meaningOf t := by rw [meaning, hGet]; rfl
  rw [hNew]
  exact ⟨headOctets_rebuilt hGet hKind (hRead.fromFields t hGet) fun hm =>
    hCharged (hMeaning.trans hm), isContainer_rebuilt hKind⟩

end Item

/-! ## §3. Trees. -/

namespace ItemTree

mutual

/-- **Trees of items that are written alike are written alike.** -/
theorem encode_eq_of_writtenAlike (c : Catalog) : ∀ t u : ItemTree,
    t.Related (Item.WrittenAlike c) u → u.encode c = t.encode c
  | node i is, node j js, h => by
    rw [encode, encode, h.1.head, h.1.holds, encodeAll_eq_of_writtenAlike c is js h.2,
      h.2.length_eq]

/-- Trees whose items are written alike are written alike. -/
theorem encodeAll_eq_of_writtenAlike (c : Catalog) : ∀ ts us : List ItemTree,
    RelatedAll (Item.WrittenAlike c) ts us → encodeAll c us = encodeAll c ts
  | [], [], _ => rfl
  | t :: ts, u :: us, h => by
    rw [encodeAll, encodeAll, encode_eq_of_writtenAlike c t u h.1,
      encodeAll_eq_of_writtenAlike c ts us h.2]
  | [], _ :: _, h => h.elim
  | _ :: _, [], h => h.elim

end

end ItemTree

/-- **One pass reaches a normal form.**  Whatever octets a record of a known type was read from, it
is built into a tree; and if containers do not lie deeper in one another than the reader goes, and
whatever has charges for a sub type has charges left, then what the tree is written as is read to
its last octet and built, and the new tree is written as the same octets. -/
theorem encode_normal_form {c : Catalog} {r r' : Reader} {rec : Record}
    (hRead : decode c r = .ok (rec, r')) (hKnown : rec.known = true) :
    ∃ t tally, rec.build c = (.ok (some t), tally)
      ∧ (t.nesting ≤ maxDepth → (t.Every fun i _ => i.Charged c) →
        ∃ rec' t' tally', decode c (Reader.ofOctets (t.encode c))
            = .ok (rec', ⟨(t.encode c).length, []⟩)
          ∧ rec'.build c = (.ok (some t'), tally') ∧ t'.encode c = t.encode c) := by
  obtain ⟨t, tally, hBuilt⟩ := build_of_decode hRead hKnown
  refine ⟨t, tally, hBuilt, ?_⟩
  intro hNesting hCharged
  have hAsRead : t.Every (Item.AsRead c) :=
    (asRead_givenByReading c).decode hRead t (congrArg Prod.fst hBuilt)
  have hStorable : t.Every (Item.Storable c) := hAsRead.imp fun _ _ h => h.storable
  -- What the tree is written as is read back as the record of the tree.
  have hReadable : t.Every (Item.Readable c) := hStorable.imp fun _ _ h => h.readable
  have hAgain := decodeWithin_encode c t maxDepth hReadable hNesting [] 0
  rw [List.append_nil, Nat.zero_add] at hAgain
  -- From that record the items are built that are written alike.
  obtain ⟨t', hRebuilt, hRelated⟩ := build_record_rebuiltAs c t hStorable
  have hAlike : t.Related (Item.WrittenAlike c) t' :=
    .imp (fun _ _ _ hBoth hAs => hAs.writtenAlike hBoth.1 hBoth.2) t t' (hAsRead.and t hCharged)
      hRelated
  exact ⟨t.record c, t', _, hAgain, hRebuilt, t.encode_eq_of_writtenAlike c t' hAlike⟩

/-- The catalog of bags, with wands that have five charges when new. -/
def wandCatalog : Catalog where
  types := bagCatalog.types.insert 2 { id := 2, charges := 5 }
  keyed := bagCatalog.keyed_insert { id := 2, charges := 5 }

/-- A bag with a description that is not UTF-8, two weights, a state of decay and a count that say
nothing, with something of a type that nobody knows and a wand with four charges in it. -/
def oddBag : List UInt8 :=
  [1, 0, 7, 2, 0, 0x41, 0xFF, 27, 5, 0, 0, 0, 27, 9, 0, 0, 0, 17, 0, 15, 3,
    23, 2, 0, 0, 0, 9, 0, 0, 2, 0, 22, 4, 0, 0, 0]

/-- What is read of that bag. -/
def oddBagRead : Record × Reader :=
  (decode wandCatalog (Reader.ofOctets oddBag)).toOption.getD (default, ⟨0, []⟩)

/-- The bag is written in another way than it was stored, and in that way ever after. -/
theorem encode_normal_form_oddBag :
    decode wandCatalog (Reader.ofOctets oddBag) = .ok (oddBagRead.1, oddBagRead.2)
      ∧ ∃ t tally, oddBagRead.1.build wandCatalog = (.ok (some t), tally)
        ∧ t.encode wandCatalog ≠ oddBag
        ∧ ∃ rec' t' tally', decode wandCatalog (Reader.ofOctets (t.encode wandCatalog))
            = .ok (rec', ⟨(t.encode wandCatalog).length, []⟩)
          ∧ rec'.build wandCatalog = (.ok (some t'), tally')
          ∧ t'.encode wandCatalog = t.encode wandCatalog := by
  have hReads : (decode wandCatalog (Reader.ofOctets oddBag)).toOption.isSome = true := by
    decide +kernel
  have hRead : decode wandCatalog (Reader.ofOctets oddBag) = .ok (oddBagRead.1, oddBagRead.2) := by
    unfold oddBagRead
    exact eq_ok_of_isSome _ (default, ⟨0, []⟩) hReads
  obtain ⟨t, tally, hBuilt, hAgain⟩ := encode_normal_form hRead (by decide +kernel)
  -- All that there is to check about the bag that is built can be computed.
  have hChecked : ((oddBagRead.1.build wandCatalog).1.toOption.getD none).all (fun t =>
      decide (t.nesting ≤ maxDepth) && decide (t.Every fun i _ => i.Charged wandCatalog)
        && decide (t.encode wandCatalog ≠ oddBag)) = true := by
    decide +kernel
  rw [hBuilt] at hChecked
  obtain ⟨hFine, hOther⟩ := Bool.and_eq_true_iff.1 hChecked
  obtain ⟨hNesting, hCharged⟩ := Bool.and_eq_true_iff.1 hFine
  exact ⟨hRead, t, tally, hBuilt, of_decide_eq_true hOther,
    hAgain (of_decide_eq_true hNesting) (of_decide_eq_true hCharged)⟩

end Homestead
