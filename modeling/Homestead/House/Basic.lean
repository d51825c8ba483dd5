/-
  Homestead.House.Basic
  ─────────────────────
  **HOUSES AND WHO MAY DO WHAT IN THEM.**

  A house has tiles, the doors and beds that stand on them, an owner, and
  lists of guests and of sub-owners.  Every door can have a list of its
  own, which is kept by the door; lists are addressed by number, guests and
  sub-owners under numbers that no door has.

  When a house passes from one owner to another, every list goes: the new
  owner inherits no guests.  The first owner finds the lists as they are.
-/
import Homestead.Item.Graph

namespace Homestead

/-! ## §1. Houses. -/

/-- A house. -/
structure House where
  /-- Its number. -/
  id : UInt32
  /-- Its name. -/
  name : String := ""
  /-- Where one enters it. -/
  entry : Position := Position.zero
  /-- The number of its town. -/
  town : UInt32 := 0
  /-- The rent. -/
  rent : UInt32 := 0
  /-- Time up to which the rent is paid. -/
  paidUntil : Int := 0
  /-- Warnings about the rent. -/
  warnings : UInt32 := 0
  /-- The character who owns it, 0 for nobody. -/
  owner : UInt32 := 0
  /-- Who is invited. -/
  guests : AccessList := .empty
  /-- Who is invited and may use every door. -/
  subowners : AccessList := .empty
  /-- The doors, in the order in which they were registered. -/
  doors : List ItemId := []
  /-- The beds, in the order in which they were registered. -/
  beds : List ItemId := []
  /-- The tiles, in the order in which they were added. -/
  tiles : List Position := []
  deriving DecidableEq

/-- What a visitor is to a house. -/
inductive AccessLevel where
  /-- Nobody. -/
  | notInvited
  /-- A guest. -/
  | guest
  /-- A sub-owner. -/
  | subOwner
  /-- The owner. -/
  | owner
  deriving DecidableEq

/-- Whether the level opens every door. -/
def AccessLevel.opensDoors : AccessLevel → Bool
  | notInvited | guest => false
  | subOwner | owner => true

/-- The number of the list of guests. -/
def guestList : UInt32 := 0x100

/-- The number of the list of sub-owners. -/
def subownerList : UInt32 := 0x101

namespace House

/-- Changes the variant of an item. -/
def updateVariant (g : Graph) (id : ItemId) (f : Variant → Variant) : Graph :=
  g.update id fun i => { i with variant := f i.variant }

/-! ## §2. Tiles, doors and beds. -/

/-- Adds a tile that the house does not have yet. -/
def addTile (h : House) (g : Graph) (p : Position) : House × Graph :=
  if h.tiles.contains p then (h, g)
  else ({ h with tiles := h.tiles ++ [p] }, g.setTileHouse p (some h.id))

/-- Registers a door that the house does not have yet. -/
def addDoor (h : House) (g : Graph) (id : ItemId) : House × Graph :=
  if h.doors.contains id then (h, g)
  else
    ({ h with doors := h.doors ++ [id] },
      g.update id fun i => if i.isDoor then
        { i with variant := i.variant.setHouse (some h.id) } else i)

/-- Registers a bed that the house does not have yet. -/
def addBed (h : House) (g : Graph) (id : ItemId) : House × Graph :=
  if h.beds.contains id then (h, g)
  else
    ({ h with beds := h.beds ++ [id] },
      g.update id fun i => if i.isBed then
        { i with variant := i.variant.setHouse (some h.id) } else i)

/-- Registers an item that is a door or a bed. -/
def addFixture (h : House) (g : Graph) (id : ItemId) : House × Graph :=
  match g.item? id with
  | some i => if i.isDoor then h.addDoor g id else if i.isBed then h.addBed g id else (h, g)
  | none => (h, g)

/-- The number of a door. -/
def doorNumber (g : Graph) (door : ItemId) : UInt8 :=
  ((g.item? door).map (·.doorId)).getD 0

/-- The first door with a number. -/
def doorByNumber (h : House) (g : Graph) (n : UInt32) : Option ItemId :=
  h.doors.find? fun door => (doorNumber g door).toUInt32 == n

/-- The number of beds as players count them: a bed covers two tiles. -/
def bedCount (h : House) : Nat :=
  (h.beds.length + 1) / 2

/-! ## §3. Lists. -/

/-- The list of a door, if it has one. -/
def doorList? (g : Graph) (door : ItemId) : Option AccessList :=
  (g.item? door).bind fun i => i.variant.list?

/-- Takes the list of a door away. -/
def dropDoorList (g : Graph) (door : ItemId) : Graph :=
  updateVariant g door fun v => v.setList none

/-- Hands the house to an owner.  If it passes from one owner to another, all lists go, and so do
the warnings about the rent. -/
def setOwner (h : House) (g : Graph) (owner : UInt32) : House × Graph :=
  if h.owner = owner then (h, g)
  else if h.owner = 0 then ({ h with owner }, g)
  else
    ({ h with owner, guests := .empty, subowners := .empty, warnings := 0 },
      h.doors.foldl dropDoorList g)

/-- Replaces the list with a number.  A number that no door has is passed over, and nobody's name
is looked up for it. -/
def setList {ρ : Type} [Resolver ρ] (h : House) (g : Graph) (list : UInt32) (text : String)
    (names : ρ) : House × Graph × ρ :=
  if list = guestList then
    let (guests, names) := AccessList.ofText text names
    ({ h with guests }, g, names)
  else if list = subownerList then
    let (subowners, names) := AccessList.ofText text names
    ({ h with subowners }, g, names)
  else match h.doorByNumber g list with
    | none => (h, g, names)
    | some door =>
      -- A registered door may have become something else since.
      if ((g.item? door).map (·.isDoor)).getD false then
        let (access, names) := AccessList.ofText text names
        (h, updateVariant g door fun v => v.setList (some access), names)
      else (h, g, names)

/-- The text of the list with a number. -/
def listText? (h : House) (g : Graph) (list : UInt32) : Option String :=
  if list = guestList then some h.guests.text
  else if list = subownerList then some h.subowners.text
  else ((h.doorByNumber g list).bind (doorList? g)).map (·.text)

/-- The lists with a text in them, by number: guests, sub-owners, and the doors as they were
registered. -/
def lists (h : House) (g : Graph) : List (UInt32 × String) :=
  let ofDoors := h.doors.filterMap fun door =>
    (doorList? g door).map fun list => ((doorNumber g door).toUInt32, list.text)
  ((guestList, h.guests.text) :: (subownerList, h.subowners.text) :: ofDoors).filter (·.2 != "")

/-! ## §4. Access. -/

/-- What a visitor is to the house. -/
def accessLevel (h : House) (visitor : Visitor) : AccessLevel :=
  if h.owner ≠ 0 && visitor.player = h.owner then .owner
  else if h.subowners.admits visitor then .subOwner
  else if h.guests.admits visitor then .guest
  else .notInvited

/-- Whether a visitor may enter. -/
def isInvited (h : House) (visitor : Visitor) : Bool :=
  h.accessLevel visitor != .notInvited

/-- Whether a visitor may use a door: owner and sub-owners may use every one, everybody else needs
to be on the door's own list. -/
def canUseDoor (h : House) (g : Graph) (door : ItemId) (visitor : Visitor) : Bool :=
  (h.accessLevel visitor).opensDoors || (doorList? g door).any (·.admits visitor)

end House

end Homestead
