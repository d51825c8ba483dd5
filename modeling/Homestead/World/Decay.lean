/-
  Homestead.World.Decay
  ─────────────────────
  **TIME RUNNING OUT.**

  An item decays when its type has both a time and a target.  While its
  time runs it stands in the decay list.  When the time is over the item
  becomes one of the target type, whose own time may start then, or it is
  taken out of the world if the target is no type.

  An item that has no time left is finished on the spot; what it becomes
  starts with a time of its own or not at all, so one start makes at most
  one change.
-/
import Homestead.World.Basic

namespace Homestead

namespace World

/-- Whether an item's time may start: its type decays, and the time does not run yet. -/
def mayStart (w : World) (id : ItemId) : Bool :=
  ((w.typeOf? id).map (·.canDecay)).getD false
    && (w.graph.item? id).any fun i => i.decayState != .running

/-- Milliseconds until an item decays. -/
def durationOf (w : World) (id : ItemId) : Int :=
  ((w.graph.item? id).map (·.duration)).getD 0

/-- Lets the time of an item run. -/
def enlist (w : World) (id : ItemId) : World :=
  let w := w.updateItem id fun i => i.setDecayState .running
  { w with decaying := w.decaying ++ [id] }

/-- What an item decays to: the target of its type, if the catalog has it. -/
def decayTarget? (w : World) (id : ItemId) : Option TypeId :=
  ((w.typeOf? id).bind (·.decayTo)).filter fun target =>
    target != 0 && (w.catalog.get? target).isSome

/-- Takes an item out of the world. -/
def vanish (w : World) (id : ItemId) : World :=
  { w with graph := (w.graph.tryDetach id).2 }

/-- Wakes who sleeps in a bed. -/
def wake (w : World) (id : ItemId) : World :=
  let sleeper := ((w.graph.item? id).map (·.variant.sleeper)).getD 0
  if sleeper ≠ 0 then w.removeSleeper sleeper else w

/-- What happens to an item whose time is over. -/
def finishDecay (w : World) (id : ItemId) : World :=
  match w.decayTarget? id with
  | none => w.vanish id
  | some target =>
    -- What the item has become starts afresh only if it has time; it is never finished here.
    let w := (w.retype id target).wake id
    if w.durationOf id > 0 && w.mayStart id then w.enlist id else w

/-- Starts the time of an item, or finishes it when it has none left. -/
def startDecay (w : World) (id : ItemId) : World :=
  if !w.mayStart id then w
  else if w.durationOf id ≤ 0 then w.finishDecay id
  else w.enlist id

/-- Lets time pass for one item of the decay list, and counts it if it is finished. -/
def decayItem (elapsed : Int) (state : World × Nat) (id : ItemId) : World × Nat :=
  let (w, finished) := state
  match w.graph.item? id with
  | none => state
  | some i =>
    if i.decayState ≠ .running then state
    else if i.duration > elapsed then
      let w := w.updateItem id fun i => i.increase .duration (-elapsed)
      ({ w with decaying := w.decaying ++ [id] }, finished)
    else (w.finishDecay id, finished + 1)

/-- Lets time pass, in milliseconds, and counts the items that are finished by it. -/
def processDecay (w : World) (elapsed : Int) : World × Nat :=
  w.decaying.foldl (decayItem elapsed) ({ w with decaying := [] }, 0)

end World

end Homestead
