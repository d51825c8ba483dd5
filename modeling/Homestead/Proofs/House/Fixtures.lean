/-
  Homestead.Proofs.House.Fixtures
  ───────────────────────────────
  **DOORS AND BEDS.**

  A house has two lists of what stands on its tiles, one of doors and one
  of beds.  What is true of the one is true of the other in the same way,
  so both are dealt with at once.

  Main results:
    * `Fixture` — a door or a bed;
    * `Fixture.variant_become` — fixtures that get another type;
    * `addFixture_cases` — registering an item with a house.
-/
import Homestead.World.Basic
import Homestead.Proofs.Graph.Advance

namespace Homestead

/-- What a house has a list of. -/
inductive Fixture where
  /-- Doors. -/
  | door
  /-- Beds. -/
  | bed
  deriving DecidableEq

namespace Fixture

/-! ## §1. Kinds. -/

/-- Whether a variant is one of such items. -/
def ofVariant : Fixture → Variant → Bool
  | door => Variant.isDoor
  | bed => Variant.isBed

/-- Whether an item is one. -/
def ofItem (f : Fixture) (i : Item) : Bool :=
  f.ofVariant i.variant

/-- Whether a type is one of such items. -/
def ofType : Fixture → ItemType → Bool
  | door => ItemType.isDoor
  | bed => ItemType.isBed

/-- Those that a house has. -/
def ofHouse : Fixture → House → List ItemId
  | door => House.doors
  | bed => House.beds

variable {f g : Fixture} {c : Catalog} {i i' : Item} {t : ItemType} {u v : Variant}

/-- Variants of the same kind are fixtures together. -/
theorem ofVariant_eq_of_sameKind (f : Fixture) (h : u.sameKind v = true) :
    f.ofVariant u = f.ofVariant v := by
  cases f with
  | door => exact Variant.isDoor_eq_of_sameKind h
  | bed => exact Variant.isBed_eq_of_sameKind h

/-- Of one variant there are doors only or beds only. -/
theorem eq_of_ofVariant (h : f.ofVariant v = true) (h' : g.ofVariant v = true) : f = g := by
  revert h h'
  cases f <;> cases g <;> cases v <;> simp [ofVariant, Variant.isDoor, Variant.isBed]

/-- Two variants of the same fixture are of the same kind. -/
theorem sameKind_of_ofVariant (h : f.ofVariant u = true) (h' : f.ofVariant v = true) :
    u.sameKind v = true := by
  cases f <;> cases u <;> first | (cases h; done) | (cases v <;> first | (cases h'; done) | rfl)

/-- A new item is a fixture if its type is. -/
theorem ofVariant_variant (f : Fixture) (t : ItemType) : f.ofVariant t.variant = f.ofType t := by
  cases f <;> unfold ItemType.variant <;> cases hGroup : t.group <;>
    simp [ofVariant, ofType, ItemType.isDoor, ItemType.isBed, hGroup, Variant.ofGroup] <;> rfl

/-- A type is one of doors only or one of beds only. -/
theorem ofType_eq_of_ofType (h : f.ofType t = true) (g : Fixture) :
    g.ofType t = decide (g = f) := by
  revert h
  cases f <;> cases g <;> cases hGroup : t.group <;>
    simp [ofType, ItemType.isDoor, ItemType.isBed, hGroup]

/-- A door is of a type of doors, because items are in the variant of their type. -/
theorem ofItem_eq_of_typed (f : Fixture) (hTyped : i.Typed c) (ht : c.get? i.typeId = some t) :
    f.ofItem i = f.ofType t := by
  rw [ofItem, f.ofVariant_eq_of_sameKind (hTyped t ht), f.ofVariant_variant]

/-- The type of a fixture is one. -/
theorem ofType_of_typed (hTyped : i.Typed c) (ht : c.get? i.typeId = some t)
    (h : f.ofItem i = true) : f.ofType t = true :=
  (f.ofItem_eq_of_typed hTyped ht).symm.trans h

/-- **A door that becomes another door** keeps its variant, and so does a bed. -/
theorem variant_become {newType : TypeId} (hType : c.get? newType = some t)
    (hNew : f.ofType t = true) (h : f.ofItem i = true) :
    (i.become c newType).variant = i.variant := by
  rcases i.variant_become c newType with hSame | ⟨t', hType', hOther, _⟩
  · exact hSame
  · obtain rfl := Option.some_inj.1 (hType.symm.trans hType')
    rw [sameKind_of_ofVariant h (by rw [f.ofVariant_variant]; exact hNew)] at hOther
    cases hOther

/-! ## §2. Registering. -/

/-- The house with one more. -/
def register (f : Fixture) (h : House) (id : ItemId) : House :=
  match f with
  | door => { h with doors := h.doors ++ [id] }
  | bed => { h with beds := h.beds ++ [id] }

/-- The item once it knows its house. -/
def told (f : Fixture) (house : UInt32) (i : Item) : Item :=
  if f.ofItem i = true then { i with variant := i.variant.setHouse (some house) } else i

/-- A house lists the fixture that is registered, besides those it listed. -/
theorem mem_ofHouse_register {d id : ItemId} {h : House} :
    d ∈ g.ofHouse (f.register h id) ↔ d ∈ g.ofHouse h ∨ g = f ∧ d = id := by
  cases f <;> cases g <;> simp [register, ofHouse]

theorem id_register (f : Fixture) (h : House) (id : ItemId) : (f.register h id).id = h.id := by
  cases f <;> rfl

theorem tiles_register (f : Fixture) (h : House) (id : ItemId) :
    (f.register h id).tiles = h.tiles := by
  cases f <;> rfl

/-- A fixture that is told its house stays firm. -/
theorem firm_told (f : Fixture) (house : UInt32) (i : Item) : i.Firm (f.told house i) := by
  unfold told
  split_ifs
  · refine ⟨rfl, Variant.sameKind_setHouse i.variant (some house), ?_⟩
    show (i.variant.setHouse (some house)).list? = _
    cases i.variant <;> rfl
  · exact Item.Firm.refl i

end Fixture

/-- A firm item is a fixture before and after, or neither. -/
theorem Item.Firm.ofItem_eq {i i' : Item} (h : i.Firm i') (f : Fixture) :
    f.ofItem i' = f.ofItem i :=
  f.ofVariant_eq_of_sameKind h.kind

/-- **Registering an item** does nothing, unless the item is a door or a bed that the house does not
have yet. -/
theorem House.addFixture_cases (h : House) (g : Graph) (id : ItemId) :
    h.addFixture g id = (h, g) ∨ ∃ (f : Fixture) (i : Item), g.item? id = some i
      ∧ f.ofItem i = true ∧ id ∉ f.ofHouse h
      ∧ h.addFixture g id = (f.register h id, g.update id (f.told h.id)) := by
  unfold addFixture
  cases hItem : g.item? id with
  | none => exact .inl rfl
  | some i =>
    dsimp only
    -- The kinds are tried in this order; what is neither is not registered.
    split_ifs with hDoor hBed
    · unfold addDoor
      split_ifs with hHas
      · exact .inl rfl
      · exact .inr ⟨.door, i, rfl, hDoor, by simpa [Fixture.ofHouse] using hHas, rfl⟩
    · unfold addBed
      split_ifs with hHas
      · exact .inl rfl
      · exact .inr ⟨.bed, i, rfl, hBed, by simpa [Fixture.ofHouse] using hHas, rfl⟩
    · exact .inl rfl

/-- Adding an item to a house registers it as a door, as a bed or as neither. -/
theorem World.addFixture_cases {w : World} {number : UInt32} {h : House}
    (hHouse : w.house? number = some h) (id : ItemId) :
    w.updateHouse number (fun h g => h.addFixture g id)
        = { w with houses := w.houses.insert number h }
      ∨ ∃ (f : Fixture) (i : Item), w.graph.item? id = some i ∧ f.ofItem i = true
        ∧ id ∉ f.ofHouse h ∧ w.updateHouse number (fun h g => h.addFixture g id)
          = { w with
              graph := w.graph.update id (f.told h.id)
              houses := w.houses.insert number (f.register h id) } := by
  unfold updateHouse
  rw [hHouse]
  dsimp only
  rcases h.addFixture_cases w.graph id with hSame | ⟨f, i, hi, hKind, hNew, hEq⟩
  · rw [hSame]
    exact .inl rfl
  · rw [hEq]
    exact .inr ⟨f, i, hi, hKind, hNew, rfl⟩

end Homestead
