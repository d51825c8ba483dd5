/-
  Homestead.Blueprint.Basic
  ─────────────────────────
  **THE MAP AS IT IS DRAWN.**

  A blueprint has the name of a map, its houses, and its tiles with the
  items on them.  The map file is a YAML record of these three; whatever
  has a value to go by can be left out.
-/
import Homestead.Catalog.ItemType
import Homestead.Position

namespace Homestead

/-! ## §1. Entries. -/

/-- What is drawn of one item, without what it holds. -/
structure ItemSketch where
  /-- Its type. -/
  typeId : TypeId
  /-- Its first sub type. -/
  count : UInt16 := 0
  /-- Its action, 0 for none. -/
  actionId : UInt16 := 0
  /-- The number of a door, 0 for none. -/
  doorId : UInt32 := 0
  /-- What is written on it. -/
  text : Option String := none
  /-- Where a teleport leads. -/
  destination : Option Position := none
  deriving DecidableEq, Inhabited

/-- An item with what it holds. -/
inductive ItemEntry where
  /-- The item and the entries of its contents. -/
  | mk (sketch : ItemSketch) (contents : List ItemEntry)
  deriving Inhabited

/-- The item of an entry. -/
def ItemEntry.sketch : ItemEntry → ItemSketch
  | mk sketch _ => sketch

/-- The entries of what an item holds. -/
def ItemEntry.contents : ItemEntry → List ItemEntry
  | mk _ contents => contents

/-- A house. -/
structure HouseEntry where
  /-- Its number. -/
  id : UInt32
  /-- Its name. -/
  name : String
  /-- Where one enters it. -/
  entry : Position
  /-- The number of its town. -/
  town : UInt32 := 0
  /-- The rent. -/
  rent : UInt32 := 0
  deriving DecidableEq

/-- A tile. -/
structure TileEntry where
  /-- Where it lies. -/
  position : Position
  /-- The house that it belongs to. -/
  house : Option UInt32 := none
  /-- What lies on it. -/
  items : List ItemEntry := []

/-- A map. -/
structure Blueprint where
  /-- Its name. -/
  name : String := ""
  /-- Its houses. -/
  houses : List HouseEntry := []
  /-- Its tiles. -/
  tiles : List TileEntry := []

/-! ## §2. The map file. -/

open Homestead.Yaml

/-- Reads an item and what it holds, down to so many levels. -/
def ItemEntry.readWithin : Nat → Node → Except Problem ItemEntry
  | 0, _ => .error .tooDeep
  | levels + 1, n => do
    let fields ← n.asRecord
      ["id", "count", "action_id", "door_id", "text", "destination", "contents"]
    let sketch : ItemSketch := {
      typeId := ← required fields "id" Node.asU16
      count := ← field fields "count" 0 Node.asU16
      actionId := ← field fields "action_id" 0 Node.asU16
      doorId := ← field fields "door_id" 0 Node.asU32
      text := ← field fields "text" none (Node.asOptional Node.asText)
      destination := ← field fields "destination" none (Node.asOptional Position.read) }
    let contents ← field fields "contents" [] (Node.asList (readWithin levels))
    return .mk sketch contents

/-- Reads an item and what it holds; items lie no deeper in one another than nodes do. -/
def ItemEntry.read (n : Node) : Except Problem ItemEntry :=
  readWithin maxDepth n

/-- Reads a house. -/
def HouseEntry.read (n : Node) : Except Problem HouseEntry := do
  let fields ← n.asRecord ["id", "name", "entry", "town_id", "rent"]
  return {
    id := ← required fields "id" Node.asU32
    name := ← required fields "name" Node.asText
    entry := ← required fields "entry" Position.read
    town := ← field fields "town_id" 0 Node.asU32
    rent := ← field fields "rent" 0 Node.asU32 }

/-- Reads a tile. -/
def TileEntry.read (n : Node) : Except Problem TileEntry := do
  let fields ← n.asRecord ["position", "house_id", "items"]
  return {
    position := ← required fields "position" Position.read
    house := ← field fields "house_id" none (Node.asOptional Node.asU32)
    items := ← field fields "items" [] (Node.asList ItemEntry.read) }

namespace Blueprint

/-- Reads a map. -/
def read (n : Node) : Except Problem Blueprint := do
  let fields ← n.asRecord ["name", "houses", "tiles"]
  return {
    name := ← field fields "name" "" Node.asText
    houses := ← field fields "houses" [] (Node.asList HouseEntry.read)
    tiles := ← field fields "tiles" [] (Node.asList TileEntry.read) }

/-- Reads a map file. -/
def parse (text : String) : Except Problem Blueprint :=
  readText read text

end Blueprint

end Homestead
