/-
  Homestead.Catalog.File
  ──────────────────────
  **THE CATALOG FILE.**

  A catalog file is a YAML list with one record for each type.  Only the
  number has to be given.
-/
import Homestead.Catalog.Basic
import Homestead.Yaml.Reading

namespace Homestead

open Yaml

/-- The group that a catalog file names. -/
def Group.ofName? : String → Option Group
  | "none" => some .none
  | "container" => some .container
  | "chest" => some .chest
  | "depot" => some .depot
  | "door" => some .door
  | "bed" => some .bed
  | "teleport" => some .teleport
  | "magic_field" => some .magicField
  | "mailbox" => some .mailbox
  | "key" => some .key
  | "fluid" => some .fluid
  | "splash" => some .splash
  | "deprecated" => some .deprecated
  | _ => Option.none

namespace ItemType

/-- The fields of a record in a catalog file. -/
def fieldNames : List String :=
  ["id", "name", "group", "stackable", "moveable", "pickupable", "can_write_text", "charges",
    "decay_time", "decay_to", "stop_time", "capacity", "weight", "attack", "defense", "armor"]

/-- Reads one type. -/
def read (n : Node) : Except Problem ItemType := do
  let fields ← n.asRecord fieldNames
  return {
    id := ← required fields "id" Node.asU16
    name := ← field fields "name" "" Node.asText
    group := ← field fields "group" .none (Node.asVariant Group.ofName?)
    stackable := ← field fields "stackable" false Node.asBool
    moveable := ← field fields "moveable" false Node.asBool
    pickupable := ← field fields "pickupable" false Node.asBool
    writable := ← field fields "can_write_text" false Node.asBool
    charges := ← field fields "charges" 0 Node.asU16
    decaySeconds := ← field fields "decay_time" 0 Node.asU32
    decayTo := ← field fields "decay_to" none (Node.asOptional Node.asU16)
    stopTime := ← field fields "stop_time" false Node.asBool
    capacity := ← field fields "capacity" 0 Node.asU16
    weight := ← field fields "weight" 0 Node.asU32
    attack := ← field fields "attack" 0 Node.asI32
    defense := ← field fields "defense" 0 Node.asI32
    armor := ← field fields "armor" 0 Node.asI32 }

end ItemType

/-- Reads a catalog file. -/
def Catalog.parse (text : String) : Except CatalogError Catalog :=
  match readText (Node.asList ItemType.read) text with
  | .error problem => .error (.malformed problem)
  | .ok types => ofTypes types

end Homestead
