/-
  Homestead.Attribute.Kind
  ────────────────────────
  **THE ATTRIBUTES AN ITEM CAN CARRY.**

  There are 31 kinds, six of them text and the others numbers.  Each kind
  has a bit of its own, so that a set of kinds is a word of 31 bits.
-/

namespace Homestead

/-- A kind of attribute. -/
inductive Kind where
  /-- Action that scripts attach to the item. -/
  | actionId
  /-- Movement that scripts attach to the item. -/
  | movementId
  /-- Special description. -/
  | description
  /-- Written text. -/
  | text
  /-- When the text was written. -/
  | writtenDate
  /-- Who wrote the text. -/
  | writer
  /-- Name in place of the one of the type. -/
  | name
  /-- Article in place of the one of the type. -/
  | article
  /-- Plural in place of the one of the type. -/
  | pluralName
  /-- Weight in place of the one of the type. -/
  | weight
  /-- Attack in place of the one of the type. -/
  | attack
  /-- Defense in place of the one of the type. -/
  | defense
  /-- Armor in place of the one of the type. -/
  | armor
  /-- Range of a shot. -/
  | shootRange
  /-- Look of a missile. -/
  | missileEffect
  /-- Milliseconds until the item decays. -/
  | duration
  /-- Whether the item is decaying. -/
  | decayState
  /-- Charges left. -/
  | charges
  /-- Fluid in the item. -/
  | fluidType
  /-- Number of a door in its house. -/
  | doorId
  /-- Number of a key. -/
  | keyNumber
  /-- Key number that a lock asks for. -/
  | keyholeNumber
  /-- Level that a door asks for. -/
  | doorLevel
  /-- Quest that a door asks for. -/
  | doorQuestNumber
  /-- Quest value that a door asks for. -/
  | doorQuestValue
  /-- Quest of a chest. -/
  | chestQuestNumber
  /-- Who may open a corpse. -/
  | corpseOwner
  /-- Life leech. -/
  | lifeLeech
  /-- Mana leech. -/
  | manaLeech
  /-- Critical hit. -/
  | critical
  /-- Reflection. -/
  | reflection
  deriving DecidableEq

namespace Kind

/-- All kinds, in the order of their bits. -/
def all : List Kind :=
  [.actionId, .movementId, .description, .text, .writtenDate, .writer, .name, .article,
    .pluralName, .weight, .attack, .defense, .armor, .shootRange, .missileEffect, .duration,
    .decayState, .charges, .fluidType, .doorId, .keyNumber, .keyholeNumber, .doorLevel,
    .doorQuestNumber, .doorQuestValue, .chestQuestNumber, .corpseOwner, .lifeLeech, .manaLeech,
    .critical, .reflection]

/-- The place of a kind's bit. -/
def index : Kind → Nat
  | actionId => 0
  | movementId => 1
  | description => 2
  | text => 3
  | writtenDate => 4
  | writer => 5
  | name => 6
  | article => 7
  | pluralName => 8
  | weight => 9
  | attack => 10
  | defense => 11
  | armor => 12
  | shootRange => 13
  | missileEffect => 14
  | duration => 15
  | decayState => 16
  | charges => 17
  | fluidType => 18
  | doorId => 19
  | keyNumber => 20
  | keyholeNumber => 21
  | doorLevel => 22
  | doorQuestNumber => 23
  | doorQuestValue => 24
  | chestQuestNumber => 25
  | corpseOwner => 26
  | lifeLeech => 27
  | manaLeech => 28
  | critical => 29
  | reflection => 30

/-- Whether the kind holds a text; the others hold a number. -/
def isText : Kind → Bool
  | description | text | writer | name | article | pluralName => true
  | _ => false

/-- Whether the kind holds a number. -/
def isNumber (k : Kind) : Bool :=
  !k.isText

/-- There are 31 kinds. -/
theorem index_lt (k : Kind) : k.index < 31 := by
  cases k <;> decide

/-- Each kind has an index of its own. -/
theorem index_injective {j k : Kind} (h : j.index = k.index) : j = k := by
  cases j <;> cases k <;> first | rfl | cases h

theorem mem_all (k : Kind) : k ∈ all := by
  cases k <;> decide

end Kind

end Homestead
