/-
  Homestead.Catalog.Basic
  ───────────────────────
  **THE TYPES OF ITEM, BY NUMBER.**

  A catalog is filled once, from a list in which no number occurs twice and
  number 0 does not occur.  A type can be used when the catalog has it and
  it is not deprecated.
-/
import Std.Data.TreeMap
import Homestead.Catalog.ItemType
import Homestead.Yaml.Cursor

namespace Homestead

/-- The types of item. -/
structure Catalog where
  /-- The types by number. -/
  types : Std.TreeMap TypeId ItemType := {}
  /-- Every type stands under its own number. -/
  keyed : ∀ (id : TypeId) (t : ItemType), types[id]? = some t → t.id = id := by simp

/-- Why a list of types makes no catalog. -/
inductive CatalogError where
  /-- The text is no list of types. -/
  | malformed (problem : Yaml.Problem)
  /-- A type has the number 0. -/
  | reservedId (name : String)
  /-- A number occurs twice. -/
  | duplicate (id : TypeId)
  deriving DecidableEq

/-- The wording of an error. -/
def CatalogError.message : CatalogError → String
  | malformed problem => "item catalog parse failed: " ++ problem.message
  | reservedId name => "item catalog entry '" ++ name ++ "' uses reserved id 0"
  | duplicate id => "item type ItemTypeId(" ++ toString id.toNat ++ ") already exists"

namespace Catalog

/-- The catalog without types. -/
def empty : Catalog := {}

/-- The type with a number. -/
def get? (c : Catalog) (id : TypeId) : Option ItemType :=
  c.types[id]?

/-- A type is found under its own number. -/
theorem id_of_get? {c : Catalog} {id : TypeId} {t : ItemType} (h : c.get? id = some t) :
    t.id = id :=
  c.keyed id t h

/-- The type with a number, if it can be used. -/
def usable? (c : Catalog) (id : TypeId) : Option ItemType :=
  (c.get? id).filter (!·.isDeprecated)

/-- The number of types. -/
def size (c : Catalog) : Nat :=
  c.types.size

/-- Whether there are no types. -/
def isEmpty (c : Catalog) : Bool :=
  c.types.isEmpty

/-- A type that is entered under its own number leaves every type under its own. -/
theorem keyed_insert (c : Catalog) (t : ItemType) (id : TypeId) (u : ItemType)
    (h : (c.types.insert t.id t)[id]? = some u) : u.id = id := by
  rw [Std.TreeMap.getElem?_insert] at h
  split at h
  next hid =>
    injection h with h
    rw [← h]
    exact Std.LawfulEqOrd.eq_of_compare hid
  next => exact c.keyed id u h

/-- Adds a type with a new number. -/
def insert (c : Catalog) (t : ItemType) : Except CatalogError Catalog :=
  if t.id = 0 then .error (.reservedId t.name)
  else if c.types.contains t.id then .error (.duplicate t.id)
  else .ok { types := c.types.insert t.id t, keyed := c.keyed_insert t }

/-- The catalog of a list of types. -/
def ofTypes (ts : List ItemType) : Except CatalogError Catalog :=
  ts.foldlM insert empty

end Catalog

end Homestead
