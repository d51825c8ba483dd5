/-
  Homestead.Position
  ──────────────────
  **WHERE A TILE LIES.**

  A position has two map coordinates and a floor.  Positions are ordered by
  `x`, then `y`, then `z`, which is the order in which a map is listed.
-/
import Std.Data.TreeMap
import Homestead.Yaml.Reading

namespace Homestead

/-- A square of the map: two coordinates and a floor. -/
structure Position where
  /-- Column. -/
  x : UInt16
  /-- Row. -/
  y : UInt16
  /-- Floor. -/
  z : UInt8
  deriving DecidableEq, Inhabited

namespace Position

/-- The position with all coordinates zero, which a teleport without a destination carries. -/
def zero : Position := ⟨0, 0, 0⟩

/-- Whether all coordinates are zero. -/
def isZero (p : Position) : Bool :=
  p.x == 0 && p.y == 0 && p.z == 0

/-- The text of a position in messages: `(x,y,z)`. -/
def text (p : Position) : String :=
  s!"({p.x.toNat},{p.y.toNat},{p.z.toNat})"

/-- The block sequence that a position is written as in a map file. -/
def yaml (p : Position) : String :=
  s!"- {p.x.toNat}\n- {p.y.toNat}\n- {p.z.toNat}\n"

/-- The position of three coordinates; a floor above 255 is cut to 255. -/
def ofCoordinates (x y z : UInt16) : Position :=
  ⟨x, y, (min z 255).toUInt8⟩

/-- Reads a position from a list of exactly three numbers. -/
def read (n : Yaml.Node) : Except Yaml.Problem Position := do
  match ← n.asList Yaml.Node.asU16 with
  | [x, y, z] => return ofCoordinates x y z
  | _ => throw (.unexpected "a list of three numbers")

/-! ## §1. The order of positions. -/

instance : Ord Position where
  compare := compareLex (compareOn (·.x)) (compareLex (compareOn (·.y)) (compareOn (·.z)))

/-- Places are compared by their first coordinate, then by the second, then by the floor. -/
theorem compare_def (p q : Position) :
    compare p q = (compare p.x q.x).then ((compare p.y q.y).then (compare p.z q.z)) := rfl

instance : Std.TransOrd Position :=
  inferInstanceAs
    (Std.TransCmp (compareLex (compareOn Position.x)
      (compareLex (compareOn Position.y) (compareOn Position.z))))

instance : Std.LawfulEqOrd Position where
  eq_of_compare {p q} h := by
    rw [compare_def, Ordering.then_eq_eq, Ordering.then_eq_eq] at h
    obtain ⟨hx, hy, hz⟩ := h
    cases p; cases q
    simp_all

end Position

end Homestead
