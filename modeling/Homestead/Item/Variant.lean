/-
  Homestead.Item.Variant
  ──────────────────────
  **WHAT AN ITEM CAN DO BEYOND LYING AROUND.**

  The group of an item's type decides its variant: some items hold others,
  doors know their house and who may pass, beds know who sleeps in them,
  teleports know where they lead.  What a container holds is not part of
  its variant; it belongs to the tree or graph that the item is in.
-/
import Homestead.Catalog.ItemType
import Homestead.House.AccessList
import Homestead.Position

namespace Homestead

/-- The state that goes with what an item can do. -/
inductive Variant where
  /-- Nothing special. -/
  | plain
  /-- Holds items; `pending` of them are still to come while it is being filled. -/
  | container (pending : UInt32)
  /-- Holds items and has the number of a depot. -/
  | depot (pending : UInt32) (number : UInt16)
  /-- A door, the house it belongs to and the list of who may pass. -/
  | door (house : Option UInt32) (list : Option AccessList)
  /-- A bed, the house it belongs to, the character asleep in it (0 for nobody) and since when. -/
  | bed (house : Option UInt32) (sleeper sleepStart : UInt32)
  /-- Leads somewhere else. -/
  | teleport (destination : Position)
  /-- A field of magic. -/
  | magicField
  /-- Takes mail. -/
  | mailbox
  deriving DecidableEq, Inhabited

namespace Variant

/-! ## §1. Kinds. -/

/-- A container that nothing is on the way to. -/
def emptyContainer : Variant := container 0

/-- A depot without a number. -/
def emptyDepot : Variant := depot 0 0

/-- The variant of a new item of a group. -/
def ofGroup : Group → Variant
  | .depot => emptyDepot
  | .container | .chest => emptyContainer
  | .teleport => teleport Position.zero
  | .magicField => magicField
  | .door => door none none
  | .mailbox => mailbox
  | .bed => bed none 0 0
  | _ => plain

/-- Whether two variants differ in their state only. -/
def sameKind : Variant → Variant → Bool
  | plain, plain => true
  | container _, container _ => true
  | depot _ _, depot _ _ => true
  | door _ _, door _ _ => true
  | bed _ _ _, bed _ _ _ => true
  | teleport _, teleport _ => true
  | magicField, magicField => true
  | mailbox, mailbox => true
  | _, _ => false

/-- What a variant is called. -/
def name : Variant → String
  | plain => "item"
  | container _ => "container"
  | depot _ _ => "depot locker"
  | door _ _ => "door"
  | bed _ _ _ => "bed"
  | teleport _ => "teleport"
  | magicField => "magic field"
  | mailbox => "mailbox"

/-- Whether the item holds items. -/
def isContainer : Variant → Bool
  | container _ | depot _ _ => true
  | _ => false

/-- Whether the item is a door. -/
def isDoor : Variant → Bool
  | door _ _ => true
  | _ => false

/-- Whether the item is a bed. -/
def isBed : Variant → Bool
  | bed _ _ _ => true
  | _ => false

/-- Whether the item has the number of a depot. -/
def isDepot : Variant → Bool
  | depot _ _ => true
  | _ => false

/-- Whether the item leads somewhere else. -/
def isTeleport : Variant → Bool
  | teleport _ => true
  | _ => false

/-! ## §2. State. -/

/-- How many items are still to come. -/
def pending : Variant → Option UInt32
  | container pending | depot pending _ => some pending
  | _ => none

/-- A container that so many items are still to come to. -/
def setPending (v : Variant) (pending : UInt32) : Variant :=
  match v with
  | container _ => container pending
  | depot _ number => depot pending number
  | v => v

/-- A depot with a number. -/
def setDepot (v : Variant) (number : UInt16) : Variant :=
  match v with
  | depot pending _ => depot pending number
  | v => v

/-- The character asleep in a bed, 0 for nobody and for other items. -/
def sleeper : Variant → UInt32
  | bed _ sleeper _ => sleeper
  | _ => 0

/-- A bed with a character asleep in it. -/
def setSleeper (v : Variant) (sleeper : UInt32) : Variant :=
  match v with
  | bed house _ start => bed house sleeper start
  | v => v

/-- A bed with the time since when its sleeper sleeps. -/
def setSleepStart (v : Variant) (start : UInt32) : Variant :=
  match v with
  | bed house sleeper _ => bed house sleeper start
  | v => v

/-- A teleport that leads to a position. -/
def setDestination (v : Variant) (destination : Position) : Variant :=
  match v with
  | teleport _ => teleport destination
  | v => v

/-- The list of who may pass a door. -/
def list? : Variant → Option AccessList
  | door _ list => list
  | _ => none

/-- A door with a list of who may pass, or without one. -/
def setList (v : Variant) (list : Option AccessList) : Variant :=
  match v with
  | door house _ => door house list
  | v => v

/-- A door or bed that belongs to a house. -/
def setHouse (v : Variant) (house : Option UInt32) : Variant :=
  match v with
  | door _ list => door house list
  | bed _ sleeper start => bed house sleeper start
  | v => v

/-- The variant of a copy: nobody sleeps in it, and nobody has been let in. -/
def copy : Variant → Variant
  | container _ => emptyContainer
  | depot _ number => depot 0 number
  | door house _ => door house none
  | bed house _ _ => bed house 0 0
  | v => v

end Variant

/-- The variant of a new item of a type. -/
def ItemType.variant (t : ItemType) : Variant :=
  Variant.ofGroup t.group

end Homestead
