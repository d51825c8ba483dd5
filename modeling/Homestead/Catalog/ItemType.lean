/-
  Homestead.Catalog.ItemType
  ──────────────────────────
  **WHAT THE CATALOG SAYS ABOUT A TYPE OF ITEM.**

  A type belongs to one group, which decides what its items can do, and
  carries defaults for weight, charges and decay.  A type decays when it
  has both a time and a target.
-/

namespace Homestead

/-- The number of a type of item. -/
abbrev TypeId := UInt16

/-- The groups of types. -/
inductive Group where
  /-- Items without a group. -/
  | none
  /-- Bags. -/
  | container
  /-- Chests, which hold items too. -/
  | chest
  /-- Lockers of a depot, which hold items too. -/
  | depot
  /-- Doors. -/
  | door
  /-- Beds. -/
  | bed
  /-- Teleports. -/
  | teleport
  /-- Magic fields. -/
  | magicField
  /-- Mailboxes. -/
  | mailbox
  /-- Keys. -/
  | key
  /-- Fluid containers. -/
  | fluid
  /-- Splashes. -/
  | splash
  /-- Types that are no longer used. -/
  | deprecated
  deriving DecidableEq, Inhabited

/-- A type of item. -/
structure ItemType where
  /-- The number of the type. -/
  id : TypeId
  /-- Its name. -/
  name : String := ""
  /-- Its group. -/
  group : Group := .none
  /-- Whether items of the type form stacks. -/
  stackable : Bool := false
  /-- Whether they can be moved. -/
  moveable : Bool := false
  /-- Whether they can be picked up. -/
  pickupable : Bool := false
  /-- Whether they can be written on. -/
  writable : Bool := false
  /-- The charges of a new item. -/
  charges : UInt16 := 0
  /-- Seconds until an item decays; zero when it does not. -/
  decaySeconds : UInt32 := 0
  /-- What an item decays to. -/
  decayTo : Option TypeId := none
  /-- Whether the time of an item stands still in this type. -/
  stopTime : Bool := false
  /-- How many items fit. -/
  capacity : UInt16 := 0
  /-- Weight of one item. -/
  weight : UInt32 := 0
  /-- Attack. -/
  attack : Int := 0
  /-- Defense. -/
  defense : Int := 0
  /-- Armor. -/
  armor : Int := 0
  deriving DecidableEq, Inhabited

namespace ItemType

/-- Whether items of the type hold items. -/
def isContainer (t : ItemType) : Bool :=
  t.group == .container || t.group == .chest || t.group == .depot

/-- Whether items of the type are doors. -/
def isDoor (t : ItemType) : Bool :=
  t.group == .door

/-- Whether items of the type are beds. -/
def isBed (t : ItemType) : Bool :=
  t.group == .bed

/-- Whether items of the type hold a fluid. -/
def isFluidContainer (t : ItemType) : Bool :=
  t.group == .fluid

/-- Whether items of the type are splashes. -/
def isSplash (t : ItemType) : Bool :=
  t.group == .splash

/-- Whether items of the type are keys. -/
def isKey (t : ItemType) : Bool :=
  t.group == .key

/-- Whether the type is no longer used. -/
def isDeprecated (t : ItemType) : Bool :=
  t.group == .deprecated

/-- Whether the count of an item stands for its fluid. -/
def holdsFluid (t : ItemType) : Bool :=
  t.isFluidContainer || t.isSplash

/-- Milliseconds that a new item lasts. -/
def duration (t : ItemType) : Int :=
  t.decaySeconds.toNat * 1000

/-- Whether items of the type decay. -/
def canDecay (t : ItemType) : Bool :=
  t.decaySeconds != 0 && t.decayTo.isSome

end ItemType

end Homestead
