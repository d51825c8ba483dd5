/-
  Homestead.Record.Tag
  ────────────────────
  **THE FIELDS THAT A RECORD MAY HAVE.**

  A record names each of its fields with one octet, and the name decides
  the layout of what follows.  Octet 0 ends a record and octet 23 starts
  its contents; neither is the name of a field.
-/
import Homestead.Attribute.Kind
import Homestead.Stream.Datum

open Homestead.Stream

namespace Homestead.Record

/-! ## §1. Names of fields. -/

/-- The name of a field. -/
inductive Tag where
  /-- Action that scripts attach to the item. -/
  | actionId
  /-- Written text. -/
  | text
  /-- Special description. -/
  | description
  /-- Where a teleport leads. -/
  | destination
  /-- Number of a depot. -/
  | depotId
  /-- Sub type, as runes had it. -/
  | runeCharges
  /-- Number of a door in its house. -/
  | doorId
  /-- Sub type below 256. -/
  | count
  /-- Milliseconds until the item decays. -/
  | duration
  /-- Whether the item is to decay. -/
  | decayState
  /-- When the text was written. -/
  | writtenDate
  /-- Who wrote the text. -/
  | writer
  /-- Who sleeps in a bed. -/
  | sleeper
  /-- Since when the sleeper sleeps. -/
  | sleepStart
  /-- Sub type, any. -/
  | charges
  /-- Name in place of the one of the type. -/
  | name
  /-- Article in place of the one of the type. -/
  | article
  /-- Plural in place of the one of the type. -/
  | pluralName
  /-- Weight in place of the one of the type. -/
  | weight
  /-- Attack in place of the one of the type. -/
  | attack
  /-- Defense in place of the one of the type. -/
  | defense
  /-- Armor in place of the one of the type. -/
  | armor
  /-- Range of a shot. -/
  | shootRange
  /-- Number of a key. -/
  | keyNumber
  /-- Key number that a lock asks for. -/
  | keyholeNumber
  /-- Level that a door asks for. -/
  | doorLevel
  /-- Quest that a door asks for. -/
  | doorQuestNumber
  /-- State of the quest that a door asks for. -/
  | doorQuestValue
  /-- Quest that a chest belongs to. -/
  | chestQuestNumber
  /-- Look of a missile. -/
  | missileEffect
  /-- Movement that scripts attach to the item. -/
  | movementId
  /-- Leech of life. -/
  | lifeLeech
  /-- Leech of mana. -/
  | manaLeech
  /-- Critical hits. -/
  | critical
  /-- Reflection. -/
  | reflection
  deriving DecidableEq

/-- The octet that ends a record. -/
def endCode : UInt8 := 0

/-- The octet that starts the contents of a record. -/
def contentsCode : UInt8 := 23

namespace Tag

/-- All names of fields. -/
def all : List Tag :=
  [.actionId, .text, .description, .destination, .depotId, .runeCharges, .doorId, .count,
    .duration, .decayState, .writtenDate, .writer, .sleeper, .sleepStart, .charges, .name,
    .article, .pluralName, .weight, .attack, .defense, .armor, .shootRange, .keyNumber,
    .keyholeNumber, .doorLevel, .doorQuestNumber, .doorQuestValue, .chestQuestNumber,
    .missileEffect, .movementId, .lifeLeech, .manaLeech, .critical, .reflection]

/-- The octet that stands for a name. -/
def code : Tag → UInt8
  | actionId => 4
  | text => 6
  | description => 7
  | destination => 8
  | depotId => 10
  | runeCharges => 12
  | doorId => 14
  | count => 15
  | duration => 16
  | decayState => 17
  | writtenDate => 18
  | writer => 19
  | sleeper => 20
  | sleepStart => 21
  | charges => 22
  | name => 24
  | article => 25
  | pluralName => 26
  | weight => 27
  | attack => 28
  | defense => 29
  | armor => 31
  | shootRange => 33
  | keyNumber => 34
  | keyholeNumber => 35
  | doorLevel => 36
  | doorQuestNumber => 37
  | doorQuestValue => 38
  | chestQuestNumber => 39
  | missileEffect => 40
  | movementId => 41
  | lifeLeech => 42
  | manaLeech => 43
  | critical => 44
  | reflection => 45

/-- The name that an octet stands for. -/
def ofCode? (code : UInt8) : Option Tag :=
  all.find? (·.code = code)

theorem mem_all (t : Tag) : t ∈ all := by
  cases t <;> decide

/-- No tag has the octet of an end mark. -/
theorem code_ne_end (t : Tag) : t.code ≠ endCode := by
  cases t <;> decide

/-- No tag has the octet that announces contents. -/
theorem code_ne_contents (t : Tag) : t.code ≠ contentsCode := by
  cases t <;> decide

/-- A tag is found by its octet. -/
theorem ofCode?_code (t : Tag) : ofCode? t.code = some t := by
  cases t <;> rfl

/-- What is found by an octet has that octet. -/
theorem ofCode?_eq_some {b : UInt8} {t : Tag} : ofCode? b = some t ↔ b = t.code := by
  constructor
  · intro h
    have := List.find?_some h
    simpa [eq_comm] using this
  · rintro rfl
    exact ofCode?_code t

/-! ## §2. Layouts and meanings. -/

/-- The layout of what follows a name. -/
def formats : Tag → List Format
  | runeCharges | doorId | count | decayState | shootRange | missileEffect => [.u8]
  | actionId | depotId | charges | keyNumber | keyholeNumber | doorLevel | doorQuestNumber
  | doorQuestValue | chestQuestNumber | movementId | lifeLeech | manaLeech | critical
  | reflection => [.u16]
  | writtenDate | sleeper | sleepStart | weight => [.u32]
  | duration | attack | defense | armor => [.i32]
  | text | description | writer | name | article | pluralName => [.block]
  | destination => [.u16, .u16, .u8]

/-- The attribute that a field writes straight away, if it does. -/
def kind? : Tag → Option Kind
  | actionId => some .actionId
  | text => some .text
  | description => some .description
  | writtenDate => some .writtenDate
  | writer => some .writer
  | name => some .name
  | article => some .article
  | pluralName => some .pluralName
  | weight => some .weight
  | attack => some .attack
  | defense => some .defense
  | armor => some .armor
  | shootRange => some .shootRange
  | keyNumber => some .keyNumber
  | keyholeNumber => some .keyholeNumber
  | doorLevel => some .doorLevel
  | doorQuestNumber => some .doorQuestNumber
  | doorQuestValue => some .doorQuestValue
  | chestQuestNumber => some .chestQuestNumber
  | missileEffect => some .missileEffect
  | movementId => some .movementId
  | lifeLeech => some .lifeLeech
  | manaLeech => some .manaLeech
  | critical => some .critical
  | reflection => some .reflection
  | _ => none

end Tag

/-! ## §3. Fields. -/

/-- A field: its name and its values. -/
structure Field where
  /-- The name. -/
  tag : Tag
  /-- The values. -/
  payload : List Datum
  deriving DecidableEq

namespace Field

/-- The octets of a field. -/
def octets (f : Field) : List UInt8 :=
  f.tag.code :: f.payload.flatMap Datum.octets

/-- Whether the values have the layout that goes with the name. -/
def wellFormed (f : Field) : Bool :=
  f.payload.map Datum.format == f.tag.formats && f.payload.all Datum.fits

end Field

end Homestead.Record
