/-
  Homestead.World.Basic
  ─────────────────────
  **THE WORLD: CATALOG, MAP, HOUSES, SLEEPERS, DECAY.**

  Beside the items on its tiles a world keeps the houses by number, the bed
  that every sleeper lies in, and the items whose time runs.  Houses,
  sleepers and the decay list hold on to their items: such an item exists
  as long as one of them does, wherever it lies.
-/
import Homestead.House.Basic

namespace Homestead

/-- A world. -/
structure World where
  /-- The types of item. -/
  catalog : Catalog := .empty
  /-- The name of the map. -/
  name : String := ""
  /-- Items and tiles. -/
  graph : Graph := {}
  /-- The houses by number. -/
  houses : Std.TreeMap UInt32 House := {}
  /-- The bed that each sleeper lies in. -/
  sleepers : Std.TreeMap UInt32 ItemId := {}
  /-- The items whose time runs. -/
  decaying : List ItemId := []

namespace World

/-! ## §1. Items. -/

/-- Changes an item where it lies. -/
def updateItem (w : World) (id : ItemId) (f : Item → Item) : World :=
  { w with graph := w.graph.update id f }

/-- Gives an item another type where it lies. -/
def retype (w : World) (id : ItemId) (newType : TypeId) : World :=
  { w with graph := w.graph.retype w.catalog id newType }

/-- The catalog's type of an item. -/
def typeOf? (w : World) (id : ItemId) : Option ItemType :=
  (w.graph.item? id).bind fun i => w.catalog.get? i.typeId

/-- What an item weighs with its contents. -/
def weight (w : World) (id : ItemId) : Nat :=
  ((w.graph.tree? id).map (·.weight w.catalog)).getD 0

/-! ## §2. Sleepers. -/

/-- Notes that a character sleeps in a bed, and in no other; nobody is not noted. -/
def setSleeper (w : World) (bed : ItemId) (sleeper : UInt32) : World :=
  if sleeper = 0 then w else { w with sleepers := w.sleepers.insert sleeper bed }

/-- Strikes a sleeper out. -/
def removeSleeper (w : World) (sleeper : UInt32) : World :=
  { w with sleepers := w.sleepers.erase sleeper }

/-- The bed that a character sleeps in. -/
def bedOf? (w : World) (sleeper : UInt32) : Option ItemId :=
  w.sleepers[sleeper]?

/-! ## §3. Houses. -/

/-- The house with a number. -/
def house? (w : World) (id : UInt32) : Option House :=
  w.houses[id]?

/-- Adds a house without anything, unless there is one with the number. -/
def ensureHouse (w : World) (id : UInt32) : World :=
  match w.house? id with
  | some _ => w
  | none => { w with houses := w.houses.insert id { id } }

/-- Changes a house and the items that it has a say in. -/
def updateHouse (w : World) (id : UInt32) (f : House → Graph → House × Graph) : World :=
  match w.house? id with
  | some h =>
    let (h, graph) := f h w.graph
    { w with graph, houses := w.houses.insert id h }
  | none => w

/-- Replaces a list of a house. -/
def setList {ρ : Type} [Resolver ρ] (w : World) (house list : UInt32) (text : String)
    (names : ρ) : World × ρ :=
  match w.house? house with
  | some h =>
    let (h, graph, names) := h.setList w.graph list text names
    ({ w with graph, houses := w.houses.insert house h }, names)
  | none => (w, names)

/-- The house of an owner, the one with the least number if there are more; nobody owns none. -/
def houseOfOwner? (w : World) (owner : UInt32) : Option House :=
  if owner = 0 then none else w.houses.values.find? (·.owner = owner)

/-! ## §4. Existence. -/

/-- The items that houses, sleepers and the decay list hold on to. -/
def heldItems (w : World) : List ItemId :=
  w.houses.values.flatMap (fun h => h.doors ++ h.beds) ++ w.sleepers.values ++ w.decaying

/-- The world with those items only that somebody holds on to, that lie on a tile, or that lie in
one that stays. -/
def retain (w : World) (handles : List ItemId) : World :=
  { w with graph := w.graph.retain (handles ++ w.heldItems) }

end World

end Homestead
