/-
  Homestead.Item.Basic
  ────────────────────
  **ONE ITEM, WITHOUT WHAT IT HOLDS.**

  An item has a type, a count, attributes and a variant.  It gets a set of
  attributes the first time that one is written, and keeps the set, even
  when it has become empty.

  How many of an item there are, which fluid it holds and how many charges
  it has left are one number to the outside, its sub type; the catalog says
  which of the three a type means.
-/
import Homestead.Attribute.Table
import Homestead.Catalog.Basic
import Homestead.Item.Variant

namespace Homestead

/-! ## §1. Items and their attributes. -/

/-- An item. -/
structure Item where
  /-- Its type. -/
  typeId : TypeId
  /-- How many there are of it. -/
  count : UInt8 := 1
  /-- Its attributes, once one has been written. -/
  attributes : Option AttributeTable := none
  /-- Its variant. -/
  variant : Variant := .plain
  deriving DecidableEq, Inhabited

/-- Where an item stands in its decay. -/
inductive DecayState where
  /-- It does not decay. -/
  | idle
  /-- Its time runs. -/
  | running
  /-- Its time is to run. -/
  | pending
  deriving DecidableEq

/-- The state that a number stands for. -/
def DecayState.ofNumber (n : Int) : DecayState :=
  if n = 1 then running else if n = 2 then pending else idle

/-- The number that stands for a state. -/
def DecayState.number : DecayState → Nat
  | idle => 0
  | running => 1
  | pending => 2

/-- A number cut to the range of two octets. -/
def clampU16 (n : Int) : UInt16 :=
  UInt16.ofNat (clamp 0 65535 n).toNat

/-- A number cut to the range of four octets. -/
def clampU32 (n : Int) : UInt32 :=
  UInt32.ofNat (clamp 0 4294967295 n).toNat

/-- A number cut to the range of one octet. -/
def clampU8 (n : Int) : UInt8 :=
  UInt8.ofNat (clamp 0 255 n).toNat

namespace Item

/-- The attributes, none written when there are none. -/
def table (i : Item) : AttributeTable :=
  i.attributes.getD .empty

/-- Whether the item has an attribute. -/
def has (i : Item) (k : Kind) : Bool :=
  i.table.has k

/-- The number of an attribute. -/
def number (i : Item) (k : Kind) : Int :=
  i.table.number k

/-- The text of an attribute. -/
def text (i : Item) (k : Kind) : String :=
  i.table.text k

/-- Writes the number of an attribute. -/
def setNumber (i : Item) (k : Kind) (n : Int) : Item :=
  { i with attributes := some (i.table.setNumber k n) }

/-- Adds to the number of an attribute. -/
def increase (i : Item) (k : Kind) (delta : Int) : Item :=
  { i with attributes := some (i.table.increase k delta) }

/-- Writes the text of an attribute; the empty text is not written. -/
def setText (i : Item) (k : Kind) (s : String) : Item :=
  if s = "" then i else { i with attributes := some (i.table.setText k s) }

/-- Removes an attribute. -/
def remove (i : Item) (k : Kind) : Item :=
  { i with attributes := i.attributes.map (·.remove k) }

/-! ## §2. Named attributes. -/

/-- Charges left. -/
def charges (i : Item) : UInt16 := clampU16 (i.number .charges)

/-- The fluid in the item. -/
def fluid (i : Item) : UInt16 := clampU16 (i.number .fluidType)

/-- The action of the item. -/
def actionId (i : Item) : UInt16 := clampU16 (i.number .actionId)

/-- The movement of the item. -/
def movementId (i : Item) : UInt16 := clampU16 (i.number .movementId)

/-- When the text was written. -/
def writtenDate (i : Item) : UInt32 := clampU32 (i.number .writtenDate)

/-- Milliseconds until the item decays. -/
def duration (i : Item) : Int := i.number .duration

/-- Sets the milliseconds until the item decays, none below zero. -/
def setDuration (i : Item) (n : Int) : Item := i.setNumber .duration (max n 0)

/-- Where the item stands in its decay. -/
def decayState (i : Item) : DecayState := .ofNumber (i.number .decayState)

/-- Sets where the item stands in its decay. -/
def setDecayState (i : Item) (s : DecayState) : Item := i.setNumber .decayState s.number

/-- The number of a door in its house. -/
def doorId (i : Item) : UInt8 := clampU8 (i.number .doorId)

/-- Sets the number of a door in its house. -/
def setDoorId (i : Item) (n : UInt8) : Item := i.setNumber .doorId n.toNat

/-- Sets the count, cut to 255. -/
def setCount (i : Item) (n : UInt16) : Item :=
  { i with count := clampU8 n.toNat }

/-- Sets the charges. -/
def setCharges (i : Item) (n : UInt16) : Item := i.setNumber .charges n.toNat

/-- Sets the fluid. -/
def setFluid (i : Item) (n : UInt16) : Item := i.setNumber .fluidType n.toNat

/-- Whether the item holds items. -/
def isContainer (i : Item) : Bool := i.variant.isContainer

/-- Whether the item is a door. -/
def isDoor (i : Item) : Bool := i.variant.isDoor

/-- Whether the item is a bed. -/
def isBed (i : Item) : Bool := i.variant.isBed

/-! ## §3. The sub type. -/

/-- What the sub type of an item means. -/
inductive SubTypeMeaning where
  /-- How many there are. -/
  | count
  /-- The fluid in it. -/
  | fluid
  /-- Charges left. -/
  | charges
  deriving DecidableEq

/-- What the sub type means for a type. -/
def meaningOf (t : ItemType) : SubTypeMeaning :=
  if t.holdsFluid then .fluid
  else if t.stackable then .count
  else if t.charges ≠ 0 then .charges
  else .count

/-- What the sub type of the item means; the count where the catalog does not know the type. -/
def meaning (i : Item) (c : Catalog) : SubTypeMeaning :=
  ((c.get? i.typeId).map meaningOf).getD .count

/-- The sub type. -/
def subType (i : Item) (c : Catalog) : UInt16 :=
  match i.meaning c with
  | .count => i.count.toUInt16
  | .fluid => i.fluid
  | .charges => i.charges

/-- Sets the sub type. -/
def setSubType (i : Item) (c : Catalog) (n : UInt16) : Item :=
  match i.meaning c with
  | .count => i.setCount n
  | .fluid => i.setFluid n
  | .charges => i.setCharges n

/-! ## §4. New items. -/

/-- Gives a new item of a type its first sub type; a key takes it as its number. -/
def startSubType (i : Item) (t : ItemType) (n : UInt16) : Item :=
  if t.holdsFluid then i.setFluid n
  else if t.stackable then
    if n ≠ 0 then i.setCount n
    else if t.charges ≠ 0 then i.setCount t.charges
    else i
  else if t.charges ≠ 0 then i.setCharges (if n ≠ 0 then n else t.charges)
  else if t.isKey then i.setNumber .keyNumber n.toNat
  else i

/-- A new item of a type. -/
def ofType (t : ItemType) (n : UInt16) : Item :=
  let i := ({ typeId := t.id, variant := t.variant } : Item).startSubType t n
  if t.duration ≠ 0 then i.setDuration t.duration else i

/-- A new item, if its type can be used. -/
def create? (c : Catalog) (id : TypeId) (n : UInt16) : Option Item :=
  (c.usable? id).map (ofType · n)

/-- The copy of an item. -/
def copy (i : Item) : Item :=
  { i with variant := i.variant.copy }

/-! ## §5. Change of type. -/

/-- The decay attributes of an item that becomes one of type `t`.  Where the new type knows
nothing of decay they go; where it has a time, the item starts it anew, unless its time stood still
before and it has some left.  The owner of a corpse is always forgotten. -/
def renewDecay (i : Item) (t : ItemType) (stoodStill : Bool) : Item :=
  let i := if t.duration = 0 && !t.stopTime && t.decayTo.isNone then
    (i.remove .decayState).remove .duration else i
  let i := i.remove .corpseOwner
  if t.duration > 0 && (!stoodStill || !i.has .duration) then
    (i.setDecayState .idle).setDuration t.duration
  else i

/-- The item once it has another type.  A type that the catalog does not know changes nothing but
the number. -/
def become (i : Item) (c : Catalog) (id : TypeId) : Item :=
  let stoodStill := ((c.get? i.typeId).map (·.stopTime)).getD false
  let i := { i with typeId := id }
  match c.get? id with
  | none => i
  | some t =>
    let i := i.renewDecay t stoodStill
    if i.variant.sameKind t.variant then i else { i with variant := t.variant }

/-! ## §6. Comparison. -/

/-- Whether two items have the same type and the same attributes. -/
def agrees (i j : Item) : Bool :=
  i.typeId == j.typeId && i.table.agrees j.table

end Item

end Homestead
