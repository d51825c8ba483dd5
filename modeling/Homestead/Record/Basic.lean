/-
  Homestead.Record.Basic
  ──────────────────────
  **WHAT A STORED ITEM SAYS.**

  A record has the type of an item, the updates that make a new item of
  that type into the stored one, and the records of its contents, if it
  had a place for contents.  A record whose type cannot be used is read all
  the same, so that what follows it is found, and is known by its mark.

  Some fields mean something to one variant only.  On another one they are
  read and give no update: the catalog has changed since the item was
  stored.
-/
import Homestead.Item.Tree
import Homestead.Record.Tag
import Homestead.Item.Graph

open Homestead.Stream

namespace Homestead

namespace Record

/-! ## §1. Updates. -/

/-- A change that a field makes to a new item. -/
inductive Update where
  /-- Sets the sub type. -/
  | subType (n : UInt16)
  /-- Writes a number. -/
  | number (kind : Kind) (n : Int)
  /-- Writes a text. -/
  | text (kind : Kind) (s : String)
  /-- Sets the milliseconds until the item decays. -/
  | duration (n : Int)
  /-- Marks the item as one whose time is to run. -/
  | decayPending
  /-- Sets the number of a depot. -/
  | depotId (n : UInt16)
  /-- Sets who sleeps in a bed. -/
  | sleeper (id : UInt32)
  /-- Sets since when the sleeper sleeps. -/
  | sleepStart (time : UInt32)
  /-- Sets where a teleport leads. -/
  | destination (position : Position)
  deriving DecidableEq

/-- The number in a value. -/
def numberOf? : Datum → Option Int
  | .u8 n => some n.toNat
  | .u16 n => some n.toNat
  | .u32 n => some n.toNat
  | .i32 n => some n.toInt
  | _ => none

/-- The update that a field makes to an item, if any; `host` is the variant that the catalog gives
the item's type. -/
def Field.update? (host : Option Variant) (f : Field) : Option Update :=
  match f.tag, f.payload with
  | .count, [.u8 n] | .runeCharges, [.u8 n] => some (.subType n.toUInt16)
  | .charges, [.u16 n] => some (.subType n)
  | .duration, [.i32 n] => some (.duration (max n.toInt 0))
  | .decayState, [.u8 n] => if n ≠ 0 then some .decayPending else none
  | .depotId, [.u16 n] => if host.any (·.isDepot) then some (.depotId n) else none
  | .doorId, [.u8 n] => if host.any (·.isDoor) then some (.number .doorId n.toNat) else none
  | .sleeper, [.u32 id] => if host.any (·.isBed) then some (.sleeper id) else none
  | .sleepStart, [.u32 time] => if host.any (·.isBed) then some (.sleepStart time) else none
  | .destination, [.u16 x, .u16 y, .u8 z] =>
    if host.any (·.isTeleport) then some (.destination ⟨x, y, z⟩) else none
  | tag, [.block octets] => tag.kind?.map fun kind => .text kind (Text.ofOctets octets)
  | tag, [datum] =>
    match tag.kind?, numberOf? datum with
    | some kind, some n => some (.number kind n)
    | _, _ => none
  | _, _ => none

end Record

/-- Makes an update to an item; an update for another variant does nothing. -/
def Item.apply (c : Catalog) (i : Item) : Record.Update → Item
  | .subType n => i.setSubType c n
  | .number kind n => i.setNumber kind n
  | .text kind s => i.setText kind s
  | .duration n => i.setDuration n
  | .decayPending => i.setDecayState .pending
  | .depotId n => { i with variant := i.variant.setDepot n }
  | .sleeper id => { i with variant := i.variant.setSleeper id }
  | .sleepStart time => { i with variant := i.variant.setSleepStart time }
  | .destination position => { i with variant := i.variant.setDestination position }

/-- Makes updates to an item, one after another. -/
def Item.applyAll (c : Catalog) (i : Item) (updates : List Record.Update) : Item :=
  updates.foldl (Item.apply c) i

/-! ## §2. Records. -/

/-- A stored item and what it holds. -/
inductive Record where
  /-- The type, whether it can be used, the updates in the order in which they were stored, and
  the records of the contents. -/
  | mk (typeId : TypeId) (known : Bool) (updates : List Record.Update)
      (children : Option (List Record))
  deriving Inhabited

namespace Record

/-- The type of the item. -/
def typeId : Record → TypeId
  | mk typeId _ _ _ => typeId

/-- Whether the type can be used. -/
def known : Record → Bool
  | mk _ known _ _ => known

/-- The updates, in the order in which they were stored. -/
def updates : Record → List Update
  | mk _ _ updates _ => updates

/-- The records of the contents, if there was a place for contents. -/
def children : Record → Option (List Record)
  | mk _ _ _ children => children

mutual

/-- The number of items in a record. -/
def total : Record → Nat
  | mk _ _ _ none => 1
  | mk _ _ _ (some children) => 1 + totals children

/-- The number of items in a list of records. -/
def totals : List Record → Nat
  | [] => 0
  | r :: rs => r.total + totals rs

end

/-- The character that the last update about sleep names, 0 for nobody. -/
def sleeper (r : Record) : UInt32 :=
  let named := r.updates.reverse.findSome? fun
    | .sleeper id => some id
    | _ => none
  named.getD 0

/-! ## §3. Errors. -/

/-- What is wrong with the contents of a record. -/
inductive Mismatch where
  /-- The type holds nothing. -/
  | contentsRefused
  /-- The contents lie too deep. -/
  | tooDeep
  /-- The octet behind the contents does not end the record. -/
  | noEnd (position : Nat) (found : UInt8)
  /-- The item holds nothing. -/
  | holdsNothing
  deriving DecidableEq

/-- The deepest that containers may lie in one another. -/
def maxDepth : Nat := 24

/-- The wording of a mismatch. -/
def Mismatch.message : Mismatch → String
  | contentsRefused => "container contents on a non-container type"
  | tooDeep => "containers nested deeper than " ++ toString maxDepth
  | noEnd position found =>
    "expected end marker after contents at offset " ++ toString position ++ ", found "
      ++ toString found.toNat
  | holdsNothing => "contents decoded for an item that holds none"

/-- Why octets are no record, or a record gives no item. -/
inductive DecodeError where
  /-- The octets end before a value does. -/
  | truncated (position : Nat)
  /-- An octet names no field. -/
  | unknownTag (code : UInt8) (position : Nat)
  /-- The contents do not go with the type. -/
  | mismatch (typeId : TypeId) (reason : Mismatch)
  /-- The item does not go where it belongs. -/
  | graph (e : GraphError)
  deriving DecidableEq

/-- The wording of an error. -/
def DecodeError.message : DecodeError → String
  | truncated position => "attribute stream ends early at offset " ++ toString position
  | unknownTag code position =>
    "unknown attribute tag " ++ toString code.toNat ++ " at offset " ++ toString position
  | mismatch typeId reason => "item " ++ toString typeId.toNat ++ ": " ++ reason.message
  | graph e => "attach failed: " ++ e.message

end Record

end Homestead
