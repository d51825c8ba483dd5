/-
  Homestead.Proofs.Record.Fields
  ──────────────────────────────
  **WHICH FIELDS AN ITEM IS WRITTEN AS.**

  No field occurs twice, and which ones there are, with which values, is
  one table over the names of fields.  Every value in it reads back, and a
  number reads back as the number that was written, cut to the range of its
  field.

  Main results:
    * `fields_eq_flatMap`, `mem_fields_iff` — the fields of an item, as a
      table;
    * `payload?_number`, `payload?_text` — what the table holds for the
      numbers and texts that are carried over.
-/
import Homestead.Record.Encode
import Homestead.Proofs.Record.Update
import Homestead.Proofs.Stream.Datum

open Homestead.Stream

namespace Homestead

/-! ## §1. Numbers cut to a range. -/

/-- A number that is cut to one octet is the nearest that one octet holds. -/
theorem toNat_clampU8 (n : Int) : ((clampU8 n).toNat : Int) = clamp 0 255 n := by
  have h : (clamp 0 255 n).toNat < 256 := by
    unfold clamp
    omega
  rw [clampU8, UInt8.toNat_ofNat', Nat.mod_eq_of_lt h]
  unfold clamp
  omega

/-- A number that is cut to two octets is the nearest that two octets hold. -/
theorem toNat_clampU16 (n : Int) : ((clampU16 n).toNat : Int) = clamp 0 65535 n := by
  have h : (clamp 0 65535 n).toNat < 65536 := by
    unfold clamp
    omega
  rw [clampU16, UInt16.toNat_ofNat', Nat.mod_eq_of_lt h]
  unfold clamp
  omega

/-- A number that is cut to four octets is the nearest that four octets hold. -/
theorem toNat_clampU32 (n : Int) : ((clampU32 n).toNat : Int) = clamp 0 4294967295 n := by
  have h : (clamp 0 4294967295 n).toNat < 4294967296 := by
    unfold clamp
    omega
  rw [clampU32, UInt32.toNat_ofNat', Nat.mod_eq_of_lt h]
  unfold clamp
  omega

/-- A number that is cut to a signed range is kept by the signed format. -/
theorem toInt_ofInt_clamp (n : Int) {low : Int} (hLow : -2147483648 ≤ low)
    (hLow' : low ≤ 2147483647) :
    (Int32.ofInt (clamp low 2147483647 n)).toInt = clamp low 2147483647 n := by
  refine Int32.toInt_ofInt_of_le ?_ ?_
  · unfold clamp
    omega
  · unfold clamp
    omega

/-- The range that a record cuts the number of a kind to, for the kinds that it carries over as
they are. -/
def Kind.range? : Kind → Option (Int × Int)
  | weight | writtenDate => some (0, 4294967295)
  | attack | defense | armor => some (-2147483648, 2147483647)
  | shootRange | missileEffect => some (0, 255)
  | keyNumber | keyholeNumber | doorLevel | doorQuestNumber | doorQuestValue | chestQuestNumber
  | lifeLeech | manaLeech | critical | reflection => some (0, 65535)
  | _ => none

/-! ## §2. The table of fields. -/

namespace Item

open Record

variable (c : Catalog) (i : Item)

/-- Values that stand only under a condition. -/
def given (condition : Bool) (ds : List Datum) : Option (List Datum) :=
  if condition then some ds else none

/-- A text that stands unless it is empty. -/
def givenText (s : String) : Option (List Datum) :=
  given (s != "") [.text s]

/-- Whether items of the item's type move. -/
def isMoveable : Bool :=
  ((c.get? i.typeId).map (·.moveable)).getD false

/-- Whether the sub type of the item's type is written as a count. -/
def isCounted : Bool :=
  ((c.get? i.typeId).map fun t => t.stackable || t.holdsFluid).getD false

/-- The values under a name, if the item is written with the name. -/
def payload? : Tag → Option (List Datum)
  | .count => given (i.isCounted c) [.u8 (clampU8 (i.subType c).toNat)]
  | .charges => given (i.charges != 0) [.u16 i.charges]
  | .actionId => given (i.isMoveable c && i.actionId != 0) [.u16 i.actionId]
  | .movementId => given (i.isMoveable c && i.movementId != 0) [.u16 i.movementId]
  | .text => givenText (i.text .text)
  | .writtenDate => given (i.writtenDate != 0) [.u32 i.writtenDate]
  | .writer => givenText (i.text .writer)
  | .description => givenText (i.text .description)
  | .duration =>
    given (i.has .duration) [.i32 (Int32.ofInt (clamp 0 2147483647 i.duration))]
  | .decayState => given (i.decayState != .idle) [.u8 (UInt8.ofNat i.decayState.number)]
  | .name => givenText (i.text .name)
  | .article => givenText (i.text .article)
  | .pluralName => givenText (i.text .pluralName)
  | .weight => given (i.has .weight) [.u32 (clampU32 (i.number .weight))]
  | .attack => givenI32 .attack
  | .defense => givenI32 .defense
  | .armor => givenI32 .armor
  | .shootRange => given (i.has .shootRange) [.u8 (clampU8 (i.number .shootRange))]
  | .missileEffect => given (i.has .missileEffect) [.u8 (clampU8 (i.number .missileEffect))]
  | .keyNumber => givenU16 .keyNumber
  | .keyholeNumber => givenU16 .keyholeNumber
  | .doorLevel => givenU16 .doorLevel
  | .doorQuestNumber => givenU16 .doorQuestNumber
  | .doorQuestValue => givenU16 .doorQuestValue
  | .chestQuestNumber => givenU16 .chestQuestNumber
  | .lifeLeech => givenBonus .lifeLeech
  | .manaLeech => givenBonus .manaLeech
  | .critical => givenBonus .critical
  | .reflection => givenBonus .reflection
  | .doorId => given (i.isDoor && i.doorId != 0) [.u8 i.doorId]
  | .sleeper =>
    match i.variant with
    | .bed _ sleeper _ => given (sleeper != 0) [.u32 sleeper]
    | _ => none
  | .sleepStart =>
    match i.variant with
    | .bed _ sleeper start => given (sleeper != 0) [.u32 start]
    | _ => none
  | .destination =>
    match i.variant with
    | .teleport p => given (!p.isZero) [.u16 p.x, .u16 p.y, .u8 p.z]
    | _ => none
  | .depotId | .runeCharges => none
where
  /-- A signed number of four octets that the item has. -/
  givenI32 (k : Kind) : Option (List Datum) :=
    given (i.has k) [.i32 (Int32.ofInt (clamp (-2147483648) 2147483647 (i.number k)))]
  /-- A number of two octets that the item has. -/
  givenU16 (k : Kind) : Option (List Datum) :=
    given (i.has k) [.u16 (clampU16 (i.number k))]
  /-- A number of two octets, unless it is zero. -/
  givenBonus (k : Kind) : Option (List Datum) :=
    given (clampU16 (i.number k) != 0) [.u16 (clampU16 (i.number k))]

/-- What is not given has no data. -/
theorem given_false (ds : List Datum) : given false ds = none := rfl

/-- What is given has its own data. -/
theorem given_eq_some {b : Bool} {ds es : List Datum} :
    given b ds = some es ↔ b = true ∧ es = ds := by
  cases b <;> simp [given, eq_comm]

/-- A field under a condition is written where the condition holds. -/
theorem mem_when {b : Bool} {t : Tag} {d : Datum} {f : Field} :
    f ∈ Field.when b t d ↔ b = true ∧ f = ⟨t, [d]⟩ := by
  cases b <;> simp [Field.when]

/-- A moveable item writes the numbers of its scripts where they are not 0. -/
theorem mem_scriptFields {f : Field} :
    f ∈ i.scriptFields c ↔ i.isMoveable c = true
      ∧ ((i.actionId != 0) = true ∧ f = ⟨.actionId, [.u16 i.actionId]⟩
        ∨ (i.movementId != 0) = true ∧ f = ⟨.movementId, [.u16 i.movementId]⟩) := by
  unfold scriptFields isMoveable
  split
  next h => simp only [h, List.mem_append, mem_when, true_and]
  next h => simp [h]

/-- The fields of a variant are the number of a door, the sleeper of a bed and the destination of a
teleport. -/
theorem mem_variantFields {f : Field} :
    f ∈ i.variantFields ↔
      (i.isDoor && i.doorId != 0) = true ∧ f = ⟨.doorId, [.u8 i.doorId]⟩
        ∨ (∃ house sleeper start, i.variant = .bed house sleeper start ∧ sleeper ≠ 0
            ∧ (f = ⟨.sleeper, [.u32 sleeper]⟩ ∨ f = ⟨.sleepStart, [.u32 start]⟩))
        ∨ ∃ p, i.variant = .teleport p ∧ p.isZero = false
            ∧ f = ⟨.destination, [.u16 p.x, .u16 p.y, .u8 p.z]⟩ := by
  unfold variantFields isDoor
  split
  next _ _ h => simp [h, mem_when, Variant.isDoor]
  next _ sleeper start h =>
    simp only [h, Variant.isDoor]
    split
    next hs => simp [hs]
    next hs =>
      simp only [ne_eq, Decidable.not_not] at hs
      simp [hs]
  next p h =>
    simp only [h, Variant.isDoor]
    by_cases hp : p.isZero <;> simp [hp]
  -- The other variants have no field of their own.
  next hDoor hBed hTeleport =>
    cases hv : i.variant <;> simp_all [Variant.isDoor]

/-- The names of fields, in the order in which the fields of an item are written. -/
def writtenOrder : List Tag :=
  [.count, .charges, .actionId, .movementId, .text, .writtenDate, .writer, .description, .duration,
    .decayState, .name, .article, .pluralName, .weight, .attack, .defense, .armor, .shootRange,
    .missileEffect, .keyNumber, .keyholeNumber, .doorLevel, .doorQuestNumber, .doorQuestValue,
    .chestQuestNumber, .lifeLeech, .manaLeech, .critical, .reflection, .doorId, .sleeper,
    .sleepStart, .destination]

/-- The field that the table has under a name, if any. -/
def field? (tag : Tag) : Option Record.Field :=
  (i.payload? c tag).map (Record.Field.mk tag)

/-- A field under a condition is a list of at most one field. -/
theorem when_eq_toList (b : Bool) (tag : Tag) (d : Datum) :
    Field.when b tag d = ((given b [d]).map (Record.Field.mk tag)).toList := by
  cases b <;> rfl

/-- The fields of scripts are those with a payload, in the order they are written in. -/
theorem scriptFields_eq :
    i.scriptFields c = (i.field? c .actionId).toList ++ (i.field? c .movementId).toList := by
  show (if i.isMoveable c = true then _ else _) = _
  unfold field? payload?
  by_cases hMoves : i.isMoveable c
  · rw [if_pos hMoves, hMoves, Bool.true_and, Bool.true_and, when_eq_toList, when_eq_toList]
  · rw [if_neg hMoves, Bool.eq_false_iff.2 hMoves]
    rfl

/-- The fields of variants are those with a payload, in the order they are written in. -/
theorem variantFields_eq :
    i.variantFields = (i.field? c .doorId).toList ++ (i.field? c .sleeper).toList
      ++ (i.field? c .sleepStart).toList ++ (i.field? c .destination).toList := by
  unfold field? payload? variantFields isDoor
  -- A bed writes both of its fields or none, and a teleport none for the zero place.
  cases hVariant : i.variant with
  | door house list =>
    dsimp only [Variant.isDoor]
    rw [Bool.true_and, when_eq_toList]
    simp
  | bed house sleeper start =>
    dsimp only [Variant.isDoor]
    by_cases hSleeper : sleeper = 0
    · simp [hSleeper, given]
    · simp [hSleeper, given]
  | teleport p =>
    by_cases hZero : p.isZero
    · simp [hZero, given, Variant.isDoor]
    · simp [hZero, given, Variant.isDoor]
  | _ => rfl

/-- **The fields of an item are those of the table**, in the order in which they are written. -/
theorem fields_eq_flatMap :
    i.fields c = writtenOrder.flatMap fun tag => (i.field? c tag).toList := by
  unfold fields countFields decayFields Field.ofText Field.ofI32 Field.ofU8 Field.ofU16
    Field.ofBonus
  rw [scriptFields_eq, variantFields_eq c]
  simp only [when_eq_toList, writtenOrder, List.flatMap_cons, List.flatMap_nil, List.append_nil,
    List.append_assoc]
  rfl

/-- A tag that has a payload has its place in the order of writing. -/
theorem mem_writtenOrder {tag : Tag} {p : List Datum} (h : i.payload? c tag = some p) :
    tag ∈ writtenOrder := by
  cases tag <;> first | decide | cases h

/-- **A field stands among those of an item when the table has its values under its name.** -/
theorem mem_fields_iff (f : Field) : f ∈ i.fields c ↔ i.payload? c f.tag = some f.payload := by
  rw [fields_eq_flatMap, List.mem_flatMap]
  constructor
  · rintro ⟨tag, _, hField⟩
    obtain ⟨p, hPayload, rfl⟩ := Option.map_eq_some_iff.1 (Option.mem_toList.1 hField)
    exact hPayload
  · intro hPayload
    exact ⟨f.tag, i.mem_writtenOrder c hPayload,
      Option.mem_toList.2 (Option.map_eq_some_iff.2 ⟨f.payload, hPayload, rfl⟩)⟩

/-! ## §3. Numbers and texts that are carried over. -/

/-- A range that holds 0 leaves 0. -/
theorem clamp_zero {low high : Int} (hLow : low ≤ 0) (hHigh : 0 ≤ high) :
    clamp low high 0 = 0 := by
  unfold clamp
  omega

/-- A number of two octets that is not written is 0. -/
theorem clampU16_eq_zero {n : Int} (h : (clampU16 n != 0) = false) : clampU16 n = 0 := by
  simpa using h

/-- A number of four octets that is not written is 0. -/
theorem clampU32_eq_zero {n : Int} (h : (clampU32 n != 0) = false) : clampU32 n = 0 := by
  simpa using h

/-- A number is written as it is, or not written and 0. -/
theorem given_number {b : Bool} {d : Datum} {n : Int} (hPresent : numberOf? d = some n)
    (hAbsent : b = false → n = 0) :
    (given b [d] = none ∧ n = 0) ∨ ∃ d', given b [d] = some [d'] ∧ numberOf? d' = some n := by
  cases b with
  | false => exact .inl ⟨rfl, hAbsent rfl⟩
  | true => exact .inr ⟨d, rfl, hPresent⟩

/-- What stands for a number under a name: nothing, when the number cut to its range is 0, or a
value with the number cut to its range. -/
theorem payload?_number {t : Tag} {k : Kind} {low high : Int} (ht : t.kind? = some k)
    (hk : k.range? = some (low, high)) :
    (i.payload? c t = none ∧ clamp low high (i.number k) = 0)
      ∨ ∃ d, i.payload? c t = some [d]
          ∧ numberOf? d = some (clamp low high (i.number k)) := by
  cases t <;> simp only [Tag.kind?, Option.some.injEq, reduceCtorEq] at ht <;> subst ht <;>
    simp only [Kind.range?, Option.some.injEq, Prod.mk.injEq, reduceCtorEq] at hk <;>
    obtain ⟨rfl, rfl⟩ := hk
  -- What is left out of the table has the value nought when it is read back.
  case writtenDate =>
    refine given_number (congrArg some (toNat_clampU32 _)) ?_
    intro h
    rw [← toNat_clampU32, clampU32_eq_zero h]
    rfl
  case weight =>
    refine given_number (congrArg some (toNat_clampU32 _)) ?_
    intro h
    rw [number_of_not_has h, clamp_zero (by decide) (by decide)]
  case attack | defense | armor =>
    refine given_number (congrArg some (toInt_ofInt_clamp _ (by decide) (by decide))) ?_
    intro h
    rw [number_of_not_has h, clamp_zero (by decide) (by decide)]
  case shootRange | missileEffect =>
    refine given_number (congrArg some (toNat_clampU8 _)) ?_
    intro h
    rw [number_of_not_has h, clamp_zero (by decide) (by decide)]
  case lifeLeech | manaLeech | critical | reflection =>
    refine given_number (congrArg some (toNat_clampU16 _)) ?_
    intro h
    rw [← toNat_clampU16, clampU16_eq_zero h]
    rfl
  all_goals
    refine given_number (congrArg some (toNat_clampU16 _)) ?_
    intro h
    rw [number_of_not_has h, clamp_zero (by decide) (by decide)]

/-- What stands for a text under a name: nothing, when the text is empty, or the text. -/
theorem payload?_text {t : Tag} {k : Kind} (ht : t.kind? = some k) (hk : k.isText) :
    i.payload? c t = givenText (i.text k) := by
  cases t <;> simp only [Tag.kind?, Option.some.injEq, reduceCtorEq] at ht <;> subst ht <;>
    first | rfl | exact absurd hk (by decide)

end Item

end Homestead
