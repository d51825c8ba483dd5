/-
  Homestead.Proofs.Record.Rebuilt
  ───────────────────────────────
  **A NEW ITEM TO WHICH THE FIELDS OF ANOTHER ARE MADE.**

  The fields of an item, made to a new item of its type, give an item with
  the numbers cut to the range of their fields and the texts cut to what
  fits.  What a new item has by itself comes back only if nothing is
  written in its place.

  Main results:
    * `number_rebuilt`, `text_rebuilt` — numbers and texts that are carried
      over;
    * `script_rebuilt`, `duration_rebuilt`, `decayState_rebuilt`,
      `doorId_rebuilt` — attributes that are carried over under a condition;
    * `variant_rebuilt` — what the item can do.
-/
import Homestead.Proofs.Record.Fields
import Homestead.Proofs.Record.Source

open Homestead.Stream

namespace Homestead

open Record

/-! ## §1. Attributes with a field of their own. -/

namespace Item

variable {c : Catalog} {t : ItemType} {i : Item}

/-- The new item of a type that the fields of an item are made to. -/
def rebuilt (c : Catalog) (t : ItemType) (i : Item) : Item :=
  (ofType t 0).applyAll c ((i.fields c).filterMap (Field.update? (some t.variant)))

/-- An item that comes back is of its type. -/
theorem typeId_rebuilt (hType : c.get? i.typeId = some t) :
    (i.rebuilt c t).typeId = i.typeId := by
  rw [rebuilt, typeId_applyAll, typeId_ofType, Catalog.id_of_get? hType]

/-- A kind with a field of its own is written by that field alone. -/
theorem tag_eq_of_entry? {m : SubTypeMeaning} {f : Field} {u : Update} {k : Kind} {tag : Tag}
    {v : AttributeValue} (hTag : k.tag? = some tag) (hu : f.update? (some t.variant) = some u)
    (hv : u.entry? m = some (k, v)) : f.tag = tag := by
  rcases Tag.target?_eq_some ((Field.makes_of_update? hu).target? hv) with h | ⟨rfl | rfl, _⟩
  · exact Option.some_inj.1 (h.symm.trans hTag)
  · cases hTag
  · cases hTag

/-- What a field of its own gives a kind is there in any item that the fields are made to. -/
theorem entry_applyAll_of_field {new : Item} {k : Kind} {tag : Tag} {p : List Datum} {u : Update}
    {v : AttributeValue} (hTag : k.tag? = some tag) (hp : i.payload? c tag = some p)
    (hu : Field.update? (some t.variant) ⟨tag, p⟩ = some u)
    (hv : u.entry? (new.meaning c) = some (k, v)) :
    (new.applyAll c ((i.fields c).filterMap (Field.update? (some t.variant)))).entry k
      = (true, some v) := by
  refine (sees_entry _ k).of_agreed _ ?_ ?_
  · exact ⟨u, List.mem_filterMap.2 ⟨_, (mem_fields_iff c i _).2 hp, hu⟩,
      entryWrites_eq_some.2 ⟨v, hv, rfl⟩⟩
  · -- Another field that writes the kind has the same tag, so it is the same field.
    intro u' hu' e he
    obtain ⟨⟨tag', p'⟩, hMem, hf⟩ := List.mem_filterMap.1 hu'
    obtain ⟨v', hv', rfl⟩ := entryWrites_eq_some.1 he
    obtain rfl : tag' = tag := tag_eq_of_entry? hTag hf hv'
    have hp' := (mem_fields_iff c i _).1 hMem
    obtain rfl : p = p' := Option.some_inj.1 (hp.symm.trans hp')
    obtain rfl : u = u' := Option.some_inj.1 (hu.symm.trans hf)
    rw [hv] at hv'
    rw [(Prod.mk.inj (Option.some_inj.1 hv')).2]

/-- A kind that no field is there for is as before. -/
theorem entry_applyAll_of_absent {new : Item} {k : Kind} (hCharges : k ≠ .charges)
    (hFluid : k ≠ .fluidType) (h : ∀ tag, k.tag? = some tag → i.payload? c tag = none) :
    (new.applyAll c ((i.fields c).filterMap (Field.update? (some t.variant)))).entry k
      = new.entry k := by
  refine (sees_entry _ k).of_spared _ ?_
  intro u hu
  obtain ⟨f, hMem, hf⟩ := List.mem_filterMap.1 hu
  cases he : entryWrites (new.meaning c) k u with
  | none => rfl
  | some e =>
    obtain ⟨v, hv, rfl⟩ := entryWrites_eq_some.1 he
    -- A field that writes the kind has its tag, and there is none of them.
    rcases Tag.target?_eq_some ((Field.makes_of_update? hf).target? hv) with hTag | ⟨hk, _⟩
    · have hPayload := (mem_fields_iff c i f).1 hMem
      rw [h f.tag hTag] at hPayload
      cases hPayload
    · exact absurd hk (by simp [hCharges, hFluid])

/-- An entry that a field is written for comes back as that field says. -/
theorem entry_rebuilt_of_field {k : Kind} {tag : Tag} {p : List Datum} {u : Update}
    {v : AttributeValue} (hTag : k.tag? = some tag) (hp : i.payload? c tag = some p)
    (hu : Field.update? (some t.variant) ⟨tag, p⟩ = some u)
    (hv : u.entry? ((ofType t 0).meaning c) = some (k, v)) :
    (i.rebuilt c t).entry k = (true, some v) :=
  entry_applyAll_of_field hTag hp hu hv

/-- A kind that no field is there for is as in a new item. -/
theorem entry_rebuilt_of_absent {k : Kind} (hCharges : k ≠ .charges) (hFluid : k ≠ .fluidType)
    (h : ∀ tag, k.tag? = some tag → i.payload? c tag = none) :
    (i.rebuilt c t).entry k = (ofType t 0).entry k :=
  entry_applyAll_of_absent hCharges hFluid h

/-- A kind that is carried over has a field that writes it straight away. -/
theorem kind?_of_range? {k : Kind} {range : Int × Int} (h : k.range? = some range) :
    ∃ tag : Tag, k.tag? = some tag ∧ tag.kind? = some k := by
  cases k <;> first | exact ⟨_, rfl, rfl⟩ | cases h

/-- Every text has a tag of its own. -/
theorem kind?_of_isText {k : Kind} (h : k.isText) :
    ∃ tag : Tag, k.tag? = some tag ∧ tag.kind? = some k := by
  cases k <;> first | exact ⟨_, rfl, rfl⟩ | cases h

/-- A number that is written comes back as it is written. -/
theorem number_rebuilt_of_field {k : Kind} {tag : Tag} {d : Datum} {n : Int}
    (hTag : k.tag? = some tag) (hKind : tag.kind? = some k) (hk : k.isNumber)
    (hp : i.payload? c tag = some [d]) (hd : numberOf? d = some n) :
    (i.rebuilt c t).number k = n := by
  refine number_of_entry hk (entry_rebuilt_of_field hTag hp (Field.update?_number hKind hd) ?_)
  show (if k.isNumber then _ else _) = _
  rw [if_pos hk]

/-- A number that is not written comes back as 0, where the type gives none. -/
theorem number_rebuilt_of_absent {k : Kind} (hCharges : k ≠ .charges) (hFluid : k ≠ .fluidType)
    (hDuration : k ≠ .duration) (h : ∀ tag, k.tag? = some tag → i.payload? c tag = none) :
    (i.rebuilt c t).number k = 0 := by
  rw [number_eq_of_entry (entry_rebuilt_of_absent hCharges hFluid h), number_ofType, startNumber,
    if_neg fun h => hCharges h.1, if_neg hDuration]

/-- **A number that is carried over comes back cut to its range.** -/
theorem number_rebuilt {k : Kind} {low high : Int} (hk : k.range? = some (low, high)) :
    (i.rebuilt c t).number k = clamp low high (i.number k) := by
  obtain ⟨tag, hTag, hKind⟩ := kind?_of_range? hk
  have hNumber : k.isNumber := by cases k <;> first | rfl | cases hk
  -- These three have their own rule of being written, and no range in the table.
  have hOwn : k ≠ .charges ∧ k ≠ .fluidType ∧ k ≠ .duration := by
    refine ⟨?_, ?_, ?_⟩ <;> (rintro rfl; cases hk)
  rcases payload?_number c i hKind hk with ⟨hAbsent, hZero⟩ | ⟨d, hPresent, hd⟩
  · -- A number that is zero is not written, and the new item has none.
    rw [hZero]
    refine number_rebuilt_of_absent hOwn.1 hOwn.2.1 hOwn.2.2 ?_
    intro tag' hTag'
    rw [Option.some_inj.1 (hTag'.symm.trans hTag), hAbsent]
  · exact number_rebuilt_of_field hTag hKind hNumber hPresent hd

/-- A field has room for a character at least. -/
theorem clip_eq_nil {s : String} (h : String.ofList (Text.clip 65535 s.toList) = "") :
    s = "" := by
  have hNil : Text.clip 65535 s.toList = [] := by
    rw [← String.toList_ofList (l := Text.clip 65535 s.toList), h]
    rfl
  cases hs : s.toList with
  | nil => exact String.toList_eq_nil_iff.1 hs
  | cons ch rest =>
    have hSize : ch.utf8Size ≤ 65535 := le_trans (Char.utf8Size_le_four ch) (by decide)
    rw [hs, Text.clip, if_pos hSize] at hNil
    cases hNil

/-- A text comes back as it was written. -/
theorem text_rebuilt_eq {k : Kind} (hk : k.isText) :
    (i.rebuilt c t).text k = String.ofList (Text.clip 65535 (i.text k).toList) := by
  obtain ⟨tag, hTag, hKind⟩ := kind?_of_isText hk
  have hPayload := payload?_text c i hKind hk
  -- An empty text is not written, and reads as empty again.
  by_cases hEmpty : i.text k = ""
  · have hSub : k ≠ .charges ∧ k ≠ .fluidType := by
      refine ⟨?_, ?_⟩ <;> (rintro rfl; cases hk)
    rw [text_eq_of_entry (entry_rebuilt_of_absent hSub.1 hSub.2 ?_), text_ofType, hEmpty]
    · rfl
    · intro tag' hTag'
      rw [Option.some_inj.1 (hTag'.symm.trans hTag), hPayload, hEmpty]
      rfl
  · rw [givenText, given, if_pos (bne_iff_ne.2 hEmpty)] at hPayload
    refine text_of_entry hk (entry_rebuilt_of_field hTag hPayload
      (Field.update?_text (i.text k) hKind) ?_)
    show (if k.isText ∧ _ ≠ "" then _ else _) = _
    rw [if_pos ⟨hk, fun h => hEmpty (clip_eq_nil h)⟩]

/-- **A text comes back cut to what fits its field.** -/
theorem text_rebuilt {k : Kind} (hk : k.isText) :
    Text.IsLongestFit 65535 (i.text k).toList ((i.rebuilt c t).text k).toList := by
  rw [text_rebuilt_eq hk, String.toList_ofList]
  exact Text.clip_isLongestFit 65535 (i.text k).toList

/-! ## §2. Attributes under a condition. -/

/-- The numbers of scripts come back for moveable items, cut to two octets. -/
theorem script_rebuilt {k : Kind} (hk : k = .actionId ∨ k = .movementId)
    (hType : c.get? i.typeId = some t) :
    (i.rebuilt c t).number k = if t.moveable then clamp 0 65535 (i.number k) else 0 := by
  have hMoves : i.isMoveable c = t.moveable := by rw [isMoveable, hType]; rfl
  obtain ⟨tag, hTag, hKind, hPayload⟩ : ∃ tag : Tag, k.tag? = some tag ∧ tag.kind? = some k
      ∧ i.payload? c tag
        = given (i.isMoveable c && clampU16 (i.number k) != 0) [.u16 (clampU16 (i.number k))] := by
    rcases hk with rfl | rfl
    · exact ⟨.actionId, rfl, rfl, rfl⟩
    · exact ⟨.movementId, rfl, rfl, rfl⟩
  have hNumber : k.isNumber := by rcases hk with rfl | rfl <;> rfl
  -- Both numbers go through one field, which only what moves has.
  have hAbsent : i.payload? c tag = none → (i.rebuilt c t).number k = 0 := by
    intro h
    refine number_rebuilt_of_absent ?_ ?_ ?_ ?_
    · rcases hk with rfl | rfl <;> decide
    · rcases hk with rfl | rfl <;> decide
    · rcases hk with rfl | rfl <;> decide
    · intro tag' hTag'
      rw [Option.some_inj.1 (hTag'.symm.trans hTag), h]
  rw [hMoves] at hPayload
  by_cases hm : t.moveable
  · rw [if_pos hm, ← toNat_clampU16]
    by_cases hZero : clampU16 (i.number k) = 0
    · rw [hAbsent (by rw [hPayload, hm, hZero]; rfl), hZero]
      rfl
    · rw [hm, given, if_pos (by simpa using hZero)] at hPayload
      exact number_rebuilt_of_field hTag hKind hNumber hPayload rfl
  · rw [if_neg hm]
    refine hAbsent ?_
    rw [hPayload, Bool.eq_false_iff.2 hm]
    rfl

/-- The time is that of the fields, if there is one in them. -/
theorem entry_applyAll_duration (new : Item) :
    (new.applyAll c ((i.fields c).filterMap (Field.update? (some t.variant)))).entry .duration
      = if i.has .duration then
          (true, some (.number (clamp 0 2147483647 (i.number .duration))))
        else new.entry .duration := by
  by_cases hHas : i.has .duration
  · rw [if_pos hHas]
    have hPayload : i.payload? c .duration
        = some [.i32 (Int32.ofInt (clamp 0 2147483647 (i.number .duration)))] := by
      show given (i.has .duration) _ = _
      rw [hHas]
      rfl
    refine entry_applyAll_of_field rfl hPayload rfl ?_
    show some (Kind.duration, AttributeValue.number (max (max _ 0) 0)) = _
    -- It is cut off at nought when written and again when read.
    rw [toInt_ofInt_clamp _ (by decide) (by decide)]
    have hNonneg : 0 ≤ clamp 0 2147483647 (i.number .duration) := by
      unfold clamp
      omega
    rw [max_eq_left hNonneg, max_eq_left hNonneg]
  · rw [if_neg hHas]
    refine entry_applyAll_of_absent (by decide) (by decide) ?_
    intro tag hTag
    obtain rfl := Option.some_inj.1 hTag
    show given (i.has .duration) _ = none
    rw [Bool.eq_false_iff.2 hHas]
    rfl

/-- The time left comes back where the item has it, and is that of the type otherwise. -/
theorem duration_rebuilt :
    (i.rebuilt c t).number .duration
      = if i.has .duration then clamp 0 2147483647 (i.number .duration) else t.duration := by
  have hEntry := entry_applyAll_duration (c := c) (t := t) (i := i) (ofType t 0)
  by_cases hHas : i.has .duration
  · rw [if_pos hHas] at hEntry ⊢
    exact number_of_entry rfl hEntry
  · rw [if_neg hHas] at hEntry ⊢
    show ((ofType t 0).applyAll c _).number .duration = _
    rw [number_eq_of_entry hEntry, number_ofType]
    rfl

/-- An item whose decay had begun comes back to begin it anew. -/
theorem decayState_rebuilt :
    (i.rebuilt c t).decayState = if i.decayState = .idle then .idle else .pending := by
  by_cases hIdle : i.decayState = .idle
  · rw [if_pos hIdle, decayState, number_rebuilt_of_absent (by decide) (by decide) (by decide)]
    · rfl
    · intro tag hTag
      obtain rfl := Option.some_inj.1 hTag
      show given (i.decayState != .idle) _ = none
      rw [hIdle]
      rfl
  · rw [if_neg hIdle]
    have hPayload : i.payload? c .decayState
        = some [.u8 (UInt8.ofNat i.decayState.number)] := by
      show given (i.decayState != .idle) _ = _
      rw [bne_iff_ne.2 hIdle]
      rfl
    -- Whatever the state was, the reader makes it pending.
    have hUpdate : Field.update? (some t.variant)
        ⟨.decayState, [.u8 (UInt8.ofNat i.decayState.number)]⟩ = some .decayPending := by
      cases h : i.decayState with
      | idle => exact absurd h hIdle
      | running => rfl
      | pending => rfl
    have hNumber := number_of_entry rfl (entry_rebuilt_of_field rfl hPayload hUpdate rfl)
    rw [decayState, hNumber]
    rfl

/-- The number of a door comes back, cut to one octet. -/
theorem doorId_rebuilt (hKind : i.variant.sameKind t.variant = true) :
    (i.rebuilt c t).number .doorId
      = if i.isDoor then clamp 0 255 (i.number .doorId) else 0 := by
  have hHost : t.variant.isDoor = i.isDoor := (Variant.isDoor_eq_of_sameKind hKind).symm
  have hAbsent : i.payload? c .doorId = none → (i.rebuilt c t).number .doorId = 0 := by
    intro h
    refine number_rebuilt_of_absent (by decide) (by decide) (by decide) ?_
    intro tag hTag
    obtain rfl := Option.some_inj.1 hTag
    exact h
  have hPayload : i.payload? c .doorId = given (i.isDoor && i.doorId != 0) [.u8 i.doorId] := rfl
  by_cases hDoor : i.isDoor
  · rw [if_pos hDoor, ← toNat_clampU8]
    show _ = (i.doorId.toNat : Int)
    by_cases hZero : i.doorId = 0
    · rw [hAbsent (by rw [hPayload, hDoor, hZero]; rfl), hZero]
      rfl
    · rw [hDoor, given, if_pos (by simpa using hZero)] at hPayload
      -- The reader lets a door have a number, and the new item is a door.
      have hUpdate : Field.update? (some t.variant) ⟨.doorId, [.u8 i.doorId]⟩
          = some (.number .doorId i.doorId.toNat) := by
        show (if t.variant.isDoor then _ else _) = _
        rw [hHost, if_pos hDoor]
      exact number_of_entry rfl (entry_rebuilt_of_field rfl hPayload hUpdate rfl)
  · rw [if_neg hDoor]
    refine hAbsent ?_
    rw [hPayload, Bool.eq_false_iff.2 hDoor]
    rfl

/-- The owner of a corpse is not stored. -/
theorem corpseOwner_rebuilt : (i.rebuilt c t).number .corpseOwner = 0 :=
  number_rebuilt_of_absent (by decide) (by decide) (by decide) fun _ h => by cases h

/-! ## §3. The variant. -/

end Item

/-- What comes back of a variant: containers come back with nothing on the way to them, lockers
without a number, doors without a list, and neither doors nor beds belong to a house yet. -/
def Variant.stored : Variant → Variant
  | container _ => emptyContainer
  | depot _ _ => emptyDepot
  | door _ _ => door none none
  | bed _ sleeper start => if sleeper = 0 then bed none 0 0 else bed none sleeper start
  | v => v

/-- What is stored of a door is a door. -/
theorem Variant.isDoor_stored (v : Variant) : v.stored.isDoor = v.isDoor := by
  cases v with
  | bed house sleeper start =>
    by_cases hSleeper : sleeper = 0
    · rw [stored, if_pos hSleeper]
      rfl
    · rw [stored, if_neg hSleeper]
      rfl
  | _ => rfl

/-- A variant of the same kind as new. -/
def Variant.fresh : Variant → Variant
  | container _ => emptyContainer
  | depot _ _ => emptyDepot
  | door _ _ => door none none
  | bed _ _ _ => bed none 0 0
  | teleport _ => teleport Position.zero
  | v => v

/-- The variant of a new item is the fresh one of its kind. -/
theorem Variant.ofGroup_eq_fresh (g : Group) {v : Variant} (h : v.sameKind (ofGroup g) = true) :
    ofGroup g = v.fresh := by
  cases g <;> cases v <;> first | rfl | cases h

/-- Whether fields of a name say something about the variant. -/
def Record.Tag.ofVariant : Tag → Bool
  | .depotId | .sleeper | .sleepStart | .destination => true
  | _ => false

/-- A field that is not about the variant spares it. -/
theorem Record.Tag.Makes.onVariant {tag : Tag} {u : Update} (h : tag.Makes u)
    (hTag : tag.ofVariant = false) (v : Variant) : u.onVariant v = v := by
  cases h with
  | depotId n h => subst h; cases hTag
  | sleeper id h => subst h; cases hTag
  | sleepStart time h => subst h; cases hTag
  | destination p h => subst h; cases hTag
  | _ => rfl

namespace Item

variable {c : Catalog} {t : ItemType} {i : Item}

/-- The fields that say something about the variant come last. -/
theorem fields_eq_append_variantFields (c : Catalog) (i : Item) :
    ∃ front, i.fields c = front ++ i.variantFields ∧ ∀ f ∈ front, f.tag.ofVariant = false := by
  refine ⟨_, rfl, ?_⟩
  rintro ⟨tag, payload⟩ h
  show tag.ofVariant = false
  unfold countFields decayFields Field.ofText Field.ofI32 Field.ofU8 Field.ofU16 Field.ofBonus at h
  simp only [List.mem_append, mem_when, mem_scriptFields, Field.mk.injEq] at h
  cases tag <;> first | rfl | simp at h

/-- A type gives its new items the variant that is as new. -/
theorem variant_eq_fresh (hKind : i.variant.sameKind t.variant = true) :
    t.variant = i.variant.fresh :=
  Variant.ofGroup_eq_fresh t.group hKind

/-- A variant comes back as new if nobody sleeps in it and it leads nowhere. -/
theorem variant_eq_stored (hKind : i.variant.sameKind t.variant = true)
    (hBed : i.variant.sleeper = 0) (hTeleport : i.variant.isTeleport = false) :
    t.variant = i.variant.stored := by
  rw [variant_eq_fresh hKind]
  cases hi : i.variant with
  | bed house sleeper start =>
    rw [hi] at hBed
    exact (if_pos hBed).symm
  | teleport p =>
    rw [hi] at hTeleport
    cases hTeleport
  | _ => rfl

/-- Fields that say nothing about the variant leave it as it is. -/
theorem variant_applyAll_fields (new : Item) (host : Option Variant) (fs : List Field)
    (h : ∀ f ∈ fs, f.tag.ofVariant = false) :
    (new.applyAll c (fs.filterMap (Field.update? host))).variant = new.variant := by
  refine variant_applyAll_of_spared c new _ ?_
  intro u hu v
  obtain ⟨f, hf, hMakes⟩ := List.mem_filterMap.1 hu
  exact (Field.makes_of_update? hMakes).onVariant (h f hf) v

/-- The variant comes back as what is stored of it. -/
theorem variant_rebuilt (hKind : i.variant.sameKind t.variant = true) :
    (i.rebuilt c t).variant = i.variant.stored := by
  obtain ⟨front, hFields, hFront⟩ := fields_eq_append_variantFields c i
  -- The fields before those of the variant leave it as the type has it.
  have hNew : ((ofType t 0).applyAll c
      (front.filterMap (Field.update? (some t.variant)))).variant = t.variant := by
    rw [variant_applyAll_fields _ _ front hFront, variant_ofType]
  rw [rebuilt, hFields, List.filterMap_append, applyAll_append]
  generalize (ofType t 0).applyAll c (front.filterMap (Field.update? (some t.variant))) = new
    at hNew ⊢
  -- What is left are the fields of the variant, made to an item of the type's own variant.
  cases hi : i.variant with
  | bed house sleeper start =>
    have hHost : t.variant = .bed none 0 0 := by
      rw [variant_eq_fresh hKind, hi]
      rfl
    by_cases hs : sleeper = 0
    · -- Nobody sleeps in the bed: nothing is written, and the start of the sleep is lost.
      have hNone : i.variantFields = [] := by simp [variantFields, hi, hs]
      rw [hNone, Variant.stored, if_pos hs]
      exact hNew.trans hHost
    · have hTwo : i.variantFields = [⟨.sleeper, [.u32 sleeper]⟩, ⟨.sleepStart, [.u32 start]⟩] := by
        simp [variantFields, hi, hs]
      rw [hTwo, Variant.stored, if_neg hs, hHost]
      show ((new.apply c (.sleeper sleeper)).apply c (.sleepStart start)).variant = _
      rw [variant_apply, variant_apply, hNew, hHost]
      rfl
  | teleport p =>
    have hHost : t.variant = .teleport Position.zero := by
      rw [variant_eq_fresh hKind, hi]
      rfl
    by_cases hp : p.isZero
    · have hNone : i.variantFields = [] := by simp [variantFields, hi, hp]
      -- A destination of zeros is as good as none.
      have hZero : p = Position.zero := by
        obtain ⟨x, y, z⟩ := p
        simp only [Position.isZero, Bool.and_eq_true, beq_iff_eq] at hp
        obtain ⟨⟨rfl, rfl⟩, rfl⟩ := hp
        rfl
      rw [hNone, hZero]
      exact hNew.trans hHost
    · have hOne : i.variantFields = [⟨.destination, [.u16 p.x, .u16 p.y, .u8 p.z]⟩] := by
        simp [variantFields, hi, hp]
      rw [hOne, hHost]
      show (new.apply c (.destination p)).variant = _
      rw [variant_apply, hNew, hHost]
      rfl
  | _ =>
    -- The other variants write no field about the variant; the number of a door is an attribute.
    have hOther : ∀ f ∈ i.variantFields, f.tag.ofVariant = false := by
      intro f hf
      simp only [variantFields, hi] at hf
      first
        | cases hf
        | (rw [(mem_when.1 hf).2]; rfl)
    rw [variant_applyAll_fields _ _ _ hOther, hNew, ← hi]
    exact variant_eq_stored hKind (by rw [hi]; rfl) (by rw [hi]; rfl)

end Item

end Homestead
