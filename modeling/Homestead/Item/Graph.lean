/-
  Homestead.Item.Graph
  ────────────────────
  **WHICH ITEM LIES WHERE.**

  Items lie on tiles or in container items.  Every item is a node with a
  number of its own, a link to its holder and, if it is a container, the
  list of what it holds; every tile has such a list too.  The link and the
  lists say the same thing twice: an item stands in the list of the holder
  that its link names, once, and in no other.

  Numbers are given out once.  When an item goes out of existence its node
  goes, and a link that names it is dead: the linked item has no holder any
  more, but it is not free either, until it is detached.

  Operations that can be refused come with the graph that they leave, also
  when they are refused.  They check everything before they write, so that
  graph is the one from before.  Walks along links are cut off after as many
  steps as there are nodes; no chain of holders is longer.
-/
import Std.Data.TreeMap
import Std.Data.TreeSet
import Homestead.Item.Tree

namespace Homestead

/-! ## §1. Nodes, tiles, graphs. -/

/-- The number of a node. -/
abbrev ItemId := Nat

/-- What can hold an item. -/
inductive Holder where
  /-- The tile at a position. -/
  | tile (position : Position)
  /-- A container item. -/
  | item (id : ItemId)
  deriving DecidableEq

/-- An item with its place. -/
structure Node where
  /-- The item. -/
  item : Item
  /-- The link to its holder. -/
  holder : Option Holder := none
  /-- What it holds, in order. -/
  contents : List ItemId := []
  deriving DecidableEq

/-- A square of the map. -/
structure Tile where
  /-- The house that it belongs to. -/
  house : Option UInt32 := none
  /-- What lies on it, in order. -/
  contents : List ItemId := []
  deriving DecidableEq

/-- Items and tiles. -/
structure Graph where
  /-- The items that exist. -/
  nodes : Std.TreeMap ItemId Node := {}
  /-- The tiles of the map. -/
  tiles : Std.TreeMap Position Tile := {}
  /-- The number of the next node. -/
  next : ItemId := 0

/-- Why an operation is refused. -/
inductive GraphError where
  /-- The item has a link already. -/
  | alreadyOwned
  /-- The target holds no items. -/
  | notAContainer
  /-- A container would lie in itself. -/
  | wouldCycle
  /-- The item is not there. -/
  | notFound
  deriving DecidableEq

/-- The wording of an error. -/
def GraphError.message : GraphError → String
  | alreadyOwned => "item already has a parent"
  | notAContainer => "target item is not a container"
  | wouldCycle => "container cannot hold itself"
  | notFound => "item is not held by this cylinder"

namespace Graph

/-- The graph without items and tiles. -/
def empty : Graph := {}

/-- The number of nodes. -/
def size (g : Graph) : Nat :=
  g.nodes.size

/-- The node of an item. -/
def node? (g : Graph) (id : ItemId) : Option Node :=
  g.nodes[id]?

/-- An item. -/
def item? (g : Graph) (id : ItemId) : Option Item :=
  (g.node? id).map (·.item)

/-- The tile at a position. -/
def tile? (g : Graph) (p : Position) : Option Tile :=
  g.tiles[p]?

/-- Whether an item exists and holds items. -/
def isContainer (g : Graph) (id : ItemId) : Bool :=
  (g.item? id).any (·.isContainer)

/-- Whether a holder exists. -/
def isLive (g : Graph) : Holder → Bool
  | .tile p => (g.tile? p).isSome
  | .item id => (g.node? id).isSome

/-- What a holder holds, in order. -/
def contents (g : Graph) : Holder → List ItemId
  | .tile p => ((g.tile? p).map (·.contents)).getD []
  | .item id => ((g.node? id).map (·.contents)).getD []

/-! ## §2. Single changes. -/

/-- Changes the node of an item. -/
def updateNode (g : Graph) (id : ItemId) (f : Node → Node) : Graph :=
  match g.node? id with
  | some n => { g with nodes := g.nodes.insert id (f n) }
  | none => g

/-- Changes an item where it lies. -/
def update (g : Graph) (id : ItemId) (f : Item → Item) : Graph :=
  g.updateNode id fun n => { n with item := f n.item }

/-- Changes the link of an item. -/
def setHolder (g : Graph) (id : ItemId) (holder : Option Holder) : Graph :=
  g.updateNode id fun n => { n with holder }

/-- Changes what a holder holds. -/
def setContents (g : Graph) (holder : Holder) (ids : List ItemId) : Graph :=
  match holder with
  | .tile p =>
    match g.tile? p with
    | some t => { g with tiles := g.tiles.insert p { t with contents := ids } }
    | none => g
  | .item id => g.updateNode id fun n => { n with contents := ids }

/-- Adds an empty tile where there is none. -/
def ensureTile (g : Graph) (p : Position) : Graph :=
  match g.tile? p with
  | some _ => g
  | none => { g with tiles := g.tiles.insert p {} }

/-- Makes a tile part of a house. -/
def setTileHouse (g : Graph) (p : Position) (house : Option UInt32) : Graph :=
  match g.tile? p with
  | some t => { g with tiles := g.tiles.insert p { t with house } }
  | none => g

/-! ## §3. Holders. -/

/-- The holder of an item, if it still exists. -/
def parent? (g : Graph) (id : ItemId) : Option Holder :=
  ((g.node? id).bind (·.holder)).filter g.isLive

/-- The first `steps` holders of an item, from the one that it lies in outwards. -/
def holdersWithin (g : Graph) : Nat → ItemId → List Holder
  | 0, _ => []
  | steps + 1, id =>
    match g.parent? id with
    | none => []
    | some (.tile p) => [.tile p]
    | some (.item c) => .item c :: g.holdersWithin steps c

/-- The holders of an item, from the one that it lies in outwards. -/
def holders (g : Graph) (id : ItemId) : List Holder :=
  g.holdersWithin g.size id

/-- The outermost holder of an item.  A container that lies nowhere is its own. -/
def top? (g : Graph) (id : ItemId) : Option Holder :=
  match (g.holders id).getLast? with
  | some holder => some holder
  | none => if g.isContainer id then some (.item id) else none

/-- The tile that an item lies on, however deep. -/
def tileOf? (g : Graph) (id : ItemId) : Option Position :=
  match g.top? id with
  | some (.tile p) => some p
  | _ => none

/-- Whether an item is the container or holds it, however deep. -/
def encloses (g : Graph) (id container : ItemId) : Bool :=
  id == container || (g.holders container).contains (.item id)

/-! ## §4. Trees. -/

/-- The tree of an item, down to so many levels. -/
def treeWithin (g : Graph) : Nat → ItemId → Option ItemTree
  | 0, _ => none
  | levels + 1, id =>
    match g.node? id with
    | none => none
    | some n => (n.contents.mapM (g.treeWithin levels)).map (ItemTree.node n.item)

/-- The tree of an item. -/
def tree? (g : Graph) (id : ItemId) : Option ItemTree :=
  g.treeWithin g.size id

mutual

/-- Makes new nodes for a tree and links its root to a holder, whose list is left alone. -/
def plant (g : Graph) (holder : Option Holder) : ItemTree → ItemId × Graph
  | .node item contents =>
    let id := g.next
    let (ids, g) := plantAll { g with next := id + 1 } id contents
    (id, { g with nodes := g.nodes.insert id { item, holder, contents := ids } })

/-- Makes new nodes for trees and links their roots to a container, whose list is left alone. -/
def plantAll (g : Graph) (container : ItemId) : List ItemTree → List ItemId × Graph
  | [] => ([], g)
  | t :: ts =>
    let (id, g) := plant g (some (.item container)) t
    let (ids, g) := plantAll g container ts
    (id :: ids, g)

end

/-- Makes a tree that lies nowhere. -/
def create (g : Graph) (t : ItemTree) : ItemId × Graph :=
  g.plant none t

/-- Makes a copy of an item and all that it holds; the copy lies nowhere. -/
def clone (g : Graph) (id : ItemId) : Option (ItemId × Graph) :=
  (g.tree? id).map fun t => g.create t.copy

/-! ## §5. Placing and taking away. -/

/-- A list with an element inserted at a place, at the end if the list is shorter. -/
def insertAt (index : Nat) (id : ItemId) (ids : List ItemId) : List ItemId :=
  ids.take index ++ id :: ids.drop index

/-- Whether a holder can take an item that lies nowhere. -/
def checkTarget (g : Graph) (target : Holder) (id : ItemId) : Except GraphError Unit :=
  match target with
  | .tile p => if (g.tile? p).isSome then .ok () else .error .notFound
  | .item c =>
    if !g.isContainer c then .error .notAContainer
    else if g.encloses id c then .error .wouldCycle
    else .ok ()

/-- Puts an item that lies nowhere into a holder, at a place or at the end, and tells how that
went. -/
def tryInsert (g : Graph) (target : Holder) (index : Nat) (id : ItemId) :
    Except GraphError Unit × Graph :=
  match g.node? id with
  | none => (.error .notFound, g)
  | some n =>
    if n.holder.isSome then (.error .alreadyOwned, g)
    else
      match g.checkTarget target id with
      | .error e => (.error e, g)
      | .ok () =>
        -- The list is written first and the link last; neither can fail.
        let g := g.setContents target (insertAt index id (g.contents target))
        (.ok (), g.setHolder id target)

/-- Puts an item that lies nowhere at the end of a holder, and tells how that went. -/
def tryAdd (g : Graph) (target : Holder) (id : ItemId) : Except GraphError Unit × Graph :=
  g.tryInsert target (g.contents target).length id

/-- Takes an item out of a holder, and tells how that went. -/
def tryRemove (g : Graph) (holder : Holder) (id : ItemId) : Except GraphError Unit × Graph :=
  let ids := g.contents holder
  if ids.contains id then
    let g := g.setContents holder (ids.erase id)
    (.ok (), g.setHolder id none)
  else (.error .notFound, g)

/-- Takes an item out of its holder, whatever that is, and tells which it was. -/
def tryDetach (g : Graph) (id : ItemId) : Except GraphError (Option Holder) × Graph :=
  match g.parent? id with
  | none => (.ok none, g.setHolder id none)
  | some holder =>
    match g.tryRemove holder id with
    | (.error e, g) => (.error e, g)
    | (.ok (), g) => (.ok (some holder), g)

/-- The graph that an operation leaves when it goes through, or why it was refused. -/
def settle : Except GraphError Unit × Graph → Except GraphError Graph
  | (.ok (), g) => .ok g
  | (.error e, _) => .error e

/-- Puts an item that lies nowhere into a holder, at a place or at the end. -/
def insert (g : Graph) (target : Holder) (index : Nat) (id : ItemId) : Except GraphError Graph :=
  settle (g.tryInsert target index id)

/-- Puts an item that lies nowhere at the end of a holder. -/
def add (g : Graph) (target : Holder) (id : ItemId) : Except GraphError Graph :=
  settle (g.tryAdd target id)

/-- Takes an item out of a holder. -/
def remove (g : Graph) (holder : Holder) (id : ItemId) : Except GraphError Graph :=
  settle (g.tryRemove holder id)

/-- Takes an item out of its holder, whatever that is, and tells which it was. -/
def detach (g : Graph) (id : ItemId) : Except GraphError (Option Holder × Graph) :=
  match g.tryDetach id with
  | (.ok former, g) => .ok (former, g)
  | (.error e, _) => .error e

/-- How moving an item went. -/
inductive MoveOutcome where
  /-- It was moved. -/
  | moved
  /-- It was refused, and nothing has changed. -/
  | refused (e : GraphError)
  /-- The target did not take the item, which has been put back. -/
  | returned (e : GraphError)
  /-- The target did not take the item, and neither did its former holder. -/
  | lost (e onReturn : GraphError)
  deriving DecidableEq

/-- Why a move failed. -/
def MoveOutcome.error? : MoveOutcome → Option GraphError
  | moved => none
  | refused e | returned e | lost e _ => some e

/-- Whether an item may be moved to a holder. -/
def checkMove (g : Graph) (id : ItemId) : Holder → Except GraphError Unit
  | .tile _ => .ok ()
  | .item c => g.checkTarget (.item c) id

/-- Moves an item to the end of a holder. -/
def move (g : Graph) (id : ItemId) (target : Holder) : MoveOutcome × Graph :=
  match g.checkMove id target with
  | .error e => (.refused e, g)
  | .ok () =>
    match g.tryDetach id with
    | (.error e, g) => (.refused e, g)
    | (.ok former, g) =>
      match g.tryAdd target id with
      | (.ok (), g) => (.moved, g)
      | (.error e, g) =>
        match former with
        | none => (.returned e, g)
        | some holder =>
          match g.tryAdd holder id with
          | (.ok (), g) => (.returned e, g)
          | (.error e', g) => (.lost e e', g)

/-! ## §6. Change of type. -/

/-- Gives an item another type where it lies.  What it holds stays if it is still a container, and
lies nowhere otherwise. -/
def retype (c : Catalog) (g : Graph) (id : ItemId) (newType : TypeId) : Graph :=
  match g.node? id with
  | none => g
  | some n =>
    let item := n.item.become c newType
    if item.isContainer then g.update id fun _ => item
    else
      -- The links go with the list: an item that was in it is free at once.
      let g := g.updateNode id fun n => { n with item, contents := [] }
      n.contents.foldl (fun g child => g.setHolder child none) g

/-! ## §7. Items that go out of existence. -/

/-- Whether an item is one that somebody holds on to, lies on a tile, or lies in an item of which
one of the two is true; at most so many holders are looked at. -/
def isKeptWithin (g : Graph) (handles : Std.TreeSet ItemId) : Nat → ItemId → Bool
  | 0, id => handles.contains id
  | steps + 1, id =>
    handles.contains id || match g.parent? id with
      | none => false
      | some (.tile _) => true
      | some (.item c) => g.isKeptWithin handles steps c

/-- The graph with those items only that somebody holds on to, that lie on a tile, or that lie in
one that stays. -/
def retain (g : Graph) (handles : List ItemId) : Graph :=
  let handles := Std.TreeSet.ofList handles
  { g with nodes := g.nodes.filter fun id _ => g.isKeptWithin handles g.size id }

end Graph

end Homestead
