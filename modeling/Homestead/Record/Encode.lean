/-
  Homestead.Record.Encode
  ───────────────────────
  **FROM AN ITEM TO OCTETS.**

  An item is written as its type, the fields that set it apart from a new
  item of its type, in one fixed order, and its contents, if it is a
  container, be they empty.  Numbers are cut to the width of their field,
  and a text to the longest run of whole characters that fits.
-/
import Homestead.Record.Basic

open Homestead.Stream

namespace Homestead

namespace Record.Field

/-! ## §1. Single fields. -/

/-- A field that stands only under a condition. -/
def when (condition : Bool) (tag : Tag) (d : Datum) : List Field :=
  if condition then [⟨tag, [d]⟩] else []

/-- A text, unless it is empty. -/
def ofText (tag : Tag) (s : String) : List Field :=
  when (s != "") tag (.text s)

/-- A number of one octet that the item has. -/
def ofU8 (i : Item) (tag : Tag) (kind : Kind) : List Field :=
  when (i.has kind) tag (.u8 (clampU8 (i.number kind)))

/-- A number of two octets that the item has. -/
def ofU16 (i : Item) (tag : Tag) (kind : Kind) : List Field :=
  when (i.has kind) tag (.u16 (clampU16 (i.number kind)))

/-- A signed number of four octets that the item has. -/
def ofI32 (i : Item) (tag : Tag) (kind : Kind) : List Field :=
  when (i.has kind) tag (.i32 (Int32.ofInt (clamp (-2147483648) 2147483647 (i.number kind))))

/-- A number of two octets, unless it is zero. -/
def ofBonus (i : Item) (tag : Tag) (kind : Kind) : List Field :=
  when (clampU16 (i.number kind) != 0) tag (.u16 (clampU16 (i.number kind)))

end Record.Field

namespace Item

open Record

/-! ## §2. The fields of an item. -/

/-- The sub type of a stack, a fluid or a splash. -/
def countFields (c : Catalog) (i : Item) : List Field :=
  let counted := ((c.get? i.typeId).map fun t => t.stackable || t.holdsFluid).getD false
  Field.when counted .count (.u8 (clampU8 (i.subType c).toNat))

/-- What scripts attach to an item, which is kept for items that move about only. -/
def scriptFields (c : Catalog) (i : Item) : List Field :=
  if ((c.get? i.typeId).map (·.moveable)).getD false then
    Field.when (i.actionId != 0) .actionId (.u16 i.actionId)
      ++ Field.when (i.movementId != 0) .movementId (.u16 i.movementId)
  else []

/-- Where the item stands in its decay. -/
def decayFields (i : Item) : List Field :=
  Field.when (i.has .duration) .duration
      (.i32 (Int32.ofInt (clamp 0 2147483647 i.duration)))
    ++ Field.when (i.decayState != .idle) .decayState (.u8 (UInt8.ofNat i.decayState.number))

/-- The state of the variant: the number of a door, who sleeps in a bed, where a teleport leads. -/
def variantFields (i : Item) : List Field :=
  match i.variant with
  | .door _ _ => Field.when (i.doorId != 0) .doorId (.u8 i.doorId)
  | .bed _ sleeper start =>
    if sleeper ≠ 0 then [⟨.sleeper, [.u32 sleeper]⟩, ⟨.sleepStart, [.u32 start]⟩] else []
  | .teleport p =>
    if p.isZero then [] else [⟨.destination, [.u16 p.x, .u16 p.y, .u8 p.z]⟩]
  | _ => []

/-- The fields of an item, in the order in which they are written. -/
def fields (c : Catalog) (i : Item) : List Field :=
  i.countFields c
    ++ Field.when (i.charges != 0) .charges (.u16 i.charges)
    ++ i.scriptFields c
    ++ Field.ofText .text (i.text .text)
    ++ Field.when (i.writtenDate != 0) .writtenDate (.u32 i.writtenDate)
    ++ Field.ofText .writer (i.text .writer)
    ++ Field.ofText .description (i.text .description)
    ++ i.decayFields
    ++ Field.ofText .name (i.text .name)
    ++ Field.ofText .article (i.text .article)
    ++ Field.ofText .pluralName (i.text .pluralName)
    ++ Field.when (i.has .weight) .weight (.u32 (clampU32 (i.number .weight)))
    ++ Field.ofI32 i .attack .attack
    ++ Field.ofI32 i .defense .defense
    ++ Field.ofI32 i .armor .armor
    ++ Field.ofU8 i .shootRange .shootRange
    ++ Field.ofU8 i .missileEffect .missileEffect
    ++ Field.ofU16 i .keyNumber .keyNumber
    ++ Field.ofU16 i .keyholeNumber .keyholeNumber
    ++ Field.ofU16 i .doorLevel .doorLevel
    ++ Field.ofU16 i .doorQuestNumber .doorQuestNumber
    ++ Field.ofU16 i .doorQuestValue .doorQuestValue
    ++ Field.ofU16 i .chestQuestNumber .chestQuestNumber
    ++ Field.ofBonus i .lifeLeech .lifeLeech
    ++ Field.ofBonus i .manaLeech .manaLeech
    ++ Field.ofBonus i .critical .critical
    ++ Field.ofBonus i .reflection .reflection
    ++ i.variantFields

/-- The octets of an item up to its contents or its end. -/
def headOctets (c : Catalog) (i : Item) : List UInt8 :=
  (Datum.u16 i.typeId).octets ++ (i.fields c).flatMap Field.octets

end Item

namespace ItemTree

open Record

/-! ## §3. Trees. -/

mutual

/-- The octets of an item and what it holds. -/
def encode (c : Catalog) : ItemTree → List UInt8
  | node item contents =>
    item.headOctets c
      ++ (if item.isContainer then
            contentsCode :: littleEndian 4 contents.length ++ encodeAll c contents
          else [])
      ++ [endCode]

/-- The octets of a list of trees. -/
def encodeAll (c : Catalog) : List ItemTree → List UInt8
  | [] => []
  | t :: ts => encode c t ++ encodeAll c ts

end

end ItemTree

end Homestead
