/-
  Homestead.Proofs.House.Edits
  ────────────────────────────
  **WHAT IS DONE TO HOUSES.**

  A house gets another owner, its rent is paid, it is warned, and its lists
  are rewritten.  Loading stored rows is nothing but such edits, one after
  another.  They leave a world sound, and every house with its number, its
  doors and its tiles; of the items they change the lists of doors only.

  Main results:
    * `HouseEdit`, `editHouses` — the edits;
    * `keeps_editHouses` — a world stays sound;
    * `sameFittings_editHouses` — what edits leave alone;
    * `loadHouses_eq_ok` — loading rows.
-/
import Homestead.Proofs.Blueprint.Drawn
import Homestead.Proofs.Record.Decoded
import Homestead.World.Houses

namespace Homestead

/-! ## §1. Edits. -/

/-- Something that is done to a house. -/
inductive HouseEdit where
  /-- The house gets an owner. -/
  | owner (house owner : UInt32)
  /-- The list of a number is replaced. -/
  | list (house list : UInt32) (text : String)
  /-- The rent is paid up to a time. -/
  | paid (house : UInt32) (time : Int)
  /-- The number of warnings is set. -/
  | warnings (house number : UInt32)
  /-- The house gets what a row says. -/
  | row (row : HouseRow)
  deriving DecidableEq

/-- The replacement of a list that a row stands for. -/
def ListRow.edit (row : ListRow) : HouseEdit :=
  .list row.house row.list row.text

namespace World

variable {ρ : Type} [Resolver ρ]

/-- Does something to a house. -/
def editHouse (state : World × ρ) : HouseEdit → World × ρ
  | .owner house owner => (state.1.updateHouse house fun h g => h.setOwner g owner, state.2)
  | .list house list text => state.1.setList house list text state.2
  | .paid house time =>
    (state.1.updateHouse house fun h g => ({ h with paidUntil := time }, g), state.2)
  | .warnings house number =>
    (state.1.updateHouse house fun h g => ({ h with warnings := number }, g), state.2)
  | .row row => (state.1.restoreHouse row, state.2)

/-- Does one thing after another. -/
def editHouses (w : World) (names : ρ) (edits : List HouseEdit) : World × ρ :=
  edits.foldl editHouse (w, names)

/-- Edits that follow one another are made one after the other, the names passed on. -/
theorem editHouses_append (w : World) (names : ρ) (first second : List HouseEdit) :
    w.editHouses names (first ++ second)
      = (w.editHouses names first).1.editHouses (w.editHouses names first).2 second :=
  List.foldl_append

/-- Restoring the rows of houses is a sequence of edits, and asks for no name. -/
theorem editHouses_rows (rows : List HouseRow) (w : World) (names : ρ) :
    w.editHouses names (rows.map .row) = (w.restoreHouses rows, names) := by
  induction rows generalizing w with
  | nil => rfl
  | cons row rows ih => exact ih (w.restoreHouse row)

/-- Restoring the lists of houses is a sequence of edits. -/
theorem editHouses_lists (rows : List ListRow) (w : World) (names : ρ) :
    w.editHouses names (rows.map ListRow.edit) = w.restoreLists names rows := by
  unfold editHouses restoreLists
  rw [List.foldl_map]
  rfl

/-- **Loading houses makes the edits that the rows stand for**, those of houses first. -/
theorem loadHouses_eq_ok {w : World} {a : Archive} {names names' : ρ}
    {loaded : Loaded HouseReport} (h : w.loadHouses a names = .ok (loaded, names')) :
    ∃ rows lists, a.houseRows = .ok rows ∧ a.listRows = .ok lists
      ∧ loaded.report = w.houseReport rows lists
      ∧ w.editHouses names (rows.map .row ++ lists.map ListRow.edit) = (loaded.world, names') := by
  unfold loadHouses at h
  obtain ⟨rows, hRows, h⟩ := bind_eq_ok.1 h
  obtain ⟨lists, hLists, h⟩ := bind_eq_ok.1 h
  obtain ⟨rfl, rfl⟩ := Prod.mk.inj (Except.ok.inj h)
  refine ⟨rows, lists, hRows, hLists, rfl, ?_⟩
  rw [editHouses_append, editHouses_rows, editHouses_lists]
  rfl

end World

/-! ## §2. One house is changed. -/

/-- The number of the house that an edit is about. -/
def HouseEdit.house : HouseEdit → UInt32
  | .owner id _ | .list id _ _ | .paid id _ | .warnings id _ => id
  | .row stored => stored.id

/-- What an edit makes of its house and of the items. -/
def HouseEdit.apply {ρ : Type} [Resolver ρ] (h : House) (g : Graph) (names : ρ) :
    HouseEdit → House × Graph × ρ
  | .owner _ player => ((h.setOwner g player).1, (h.setOwner g player).2, names)
  | .list _ number text => h.setList g number text names
  | .paid _ time => ({ h with paidUntil := time }, g, names)
  | .warnings _ number => ({ h with warnings := number }, g, names)
  | .row stored =>
    ({ (h.setOwner g stored.owner).1 with paidUntil := stored.paid, warnings := stored.warnings },
      (h.setOwner g stored.owner).2, names)

namespace World

variable {ρ : Type} [Resolver ρ] {w w' w'' : World}

/-- Every edit changes the house that it is about, if there is such a house. -/
theorem editHouse_of_some {e : HouseEdit} {h : House} (hHouse : w.house? e.house = some h)
    (names : ρ) : editHouse (w, names) e
      = ({ w with
            graph := (e.apply h w.graph names).2.1
            houses := w.houses.insert e.house (e.apply h w.graph names).1 },
          (e.apply h w.graph names).2.2) := by
  have hUpdate : ∀ (id : UInt32) (f : House → Graph → House × Graph), w.house? id = some h →
      w.updateHouse id f
        = { w with graph := (f h w.graph).2, houses := w.houses.insert id (f h w.graph).1 } := by
    intro id f hid
    unfold updateHouse
    rw [hid]
  -- Only an edit of a list asks for names.
  cases e with
  | list house list text =>
    have hHere : w.house? house = some h := hHouse
    show w.setList house list text names = _
    unfold setList
    rw [hHere]
    rfl
  | row stored => exact congrArg (·, names) (hUpdate stored.id _ hHouse)
  | owner house owner => exact congrArg (·, names) (hUpdate house _ hHouse)
  | paid house time => exact congrArg (·, names) (hUpdate house _ hHouse)
  | warnings house number => exact congrArg (·, names) (hUpdate house _ hHouse)

/-- An edit of a house that is not in the register does nothing. -/
theorem editHouse_of_none {e : HouseEdit} (hHouse : w.house? e.house = none) (names : ρ) :
    editHouse (w, names) e = (w, names) := by
  -- Every edit looks for its house first.
  have hUpdate : ∀ (id : UInt32) (f : House → Graph → House × Graph), w.house? id = none →
      w.updateHouse id f = w := by
    intro id f hid
    unfold updateHouse
    rw [hid]
  cases e with
  | list house list text =>
    have hHere : w.house? house = none := hHouse
    show w.setList house list text names = _
    unfold setList
    rw [hHere]
  | row stored => exact congrArg (·, names) (hUpdate stored.id _ hHouse)
  | owner house owner => exact congrArg (·, names) (hUpdate house _ hHouse)
  | paid house time => exact congrArg (·, names) (hUpdate house _ hHouse)
  | warnings house number => exact congrArg (·, names) (hUpdate house _ hHouse)

/-- An edit changes the entry of its own house and no other. -/
theorem house?_editHouse (w : World) (names : ρ) (e : HouseEdit) (id : UInt32) :
    (editHouse (w, names) e).1.house? id = if id = e.house then
        (w.house? e.house).map fun h => (e.apply h w.graph names).1
      else w.house? id := by
  cases hHouse : w.house? e.house with
  | none =>
    rw [editHouse_of_none hHouse, Option.map_none]
    split_ifs with hid
    · rw [hid, hHouse]
    · rfl
  | some h =>
    rw [editHouse_of_some hHouse]
    exact house?_insert w.houses e.house id _

end World

/-! ## §3. What happens to the items. -/

/-- A relation of graphs that does not see who may pass the doors. -/
structure House.ListBlind (R : Graph → Graph → Prop) : Prop where
  /-- A graph is related to itself. -/
  refl : ∀ g, R g g
  /-- Steps may be put together. -/
  trans : ∀ g g' g'', R g g' → R g' g'' → R g g''
  /-- The list of a door does not matter. -/
  list : ∀ g door list, R g (updateVariant g door fun v => v.setList list)

namespace House.ListBlind

variable {R : Graph → Graph → Prop} {ρ : Type} [Resolver ρ]

/-- What is blind to the lists of doors survives a change of the owner. -/
theorem setOwner (hR : ListBlind R) (h : House) (g : Graph) (owner : UInt32) :
    R g (h.setOwner g owner).2 := by
  -- The lists of all doors are dropped one after the other, by induction on the doors.
  have hDrop : ∀ (doors : List ItemId) (g : Graph), R g (doors.foldl dropDoorList g) := by
    intro doors
    induction doors with
    | nil => exact hR.refl
    | cons door doors ih =>
      exact fun g => hR.trans g _ _ (hR.list g door none) (ih (dropDoorList g door))
  unfold House.setOwner
  split_ifs
  · exact hR.refl g
  · exact hR.refl g
  · exact hDrop h.doors g

/-- What is blind to the lists of doors survives a change of a list. -/
theorem setList (hR : ListBlind R) (h : House) (g : Graph) (list : UInt32) (text : String)
    (names : ρ) : R g (h.setList g list text names).2.1 := by
  unfold House.setList
  split_ifs
  · exact hR.refl g
  · exact hR.refl g
  · cases h.doorByNumber g list with
    | none => exact hR.refl g
    | some door =>
      dsimp only
      split_ifs
      · exact hR.list g door _
      · exact hR.refl g

/-- **An edit does nothing to the items but let other people pass.** -/
theorem editHouse (hR : ListBlind R) (w : World) (names : ρ) (e : HouseEdit) :
    R w.graph (World.editHouse (w, names) e).1.graph := by
  cases hHouse : w.house? e.house with
  | none =>
    rw [World.editHouse_of_none hHouse]
    exact hR.refl w.graph
  | some h =>
    rw [World.editHouse_of_some hHouse]
    cases e with
    | owner house owner => exact hR.setOwner h w.graph owner
    | list house list text => exact hR.setList h w.graph list text names
    | paid house time => exact hR.refl w.graph
    | warnings house number => exact hR.refl w.graph
    | row row => exact hR.setOwner h w.graph row.owner

end House.ListBlind

namespace World

variable {ρ : Type} [Resolver ρ] {w w' w'' : World}

/-- The list of a door is no part of its kind. -/
theorem sameKind_setList (v : Variant) (list : Option AccessList) :
    (v.setList list).sameKind v = true := by
  cases v <;> rfl

/-- Edits touch neither the catalog nor the sleepers. -/
theorem catalog_sleepers_editHouse (w : World) (names : ρ) (e : HouseEdit) :
    (editHouse (w, names) e).1.catalog = w.catalog
      ∧ (editHouse (w, names) e).1.sleepers = w.sleepers := by
  cases hHouse : w.house? e.house with
  | none =>
    rw [editHouse_of_none hHouse]
    exact ⟨rfl, rfl⟩
  | some h =>
    rw [editHouse_of_some hHouse]
    exact ⟨rfl, rfl⟩

/-- That items keep their kind and place is blind to the lists of doors. -/
theorem keeps_listBlind (w : World) :
    House.ListBlind fun g g' => Keeps { w with graph := g } { w with graph := g' } where
  refl g := Keeps.refl { w with graph := g }
  trans _ _ _ h h' := h.trans h'
  list g door list :=
    keeps_updateItem { w with graph := g } door (fun _ => rfl) fun i =>
      sameKind_setList i.variant list

/-- The tiles are blind to the lists of doors. -/
theorem tiles_listBlind : House.ListBlind fun g g' => g'.tiles = g.tiles where
  refl _ := rfl
  trans _ _ _ h h' := h'.trans h
  list g door _ := Graph.tiles_update g door _

/-- An edit of a house writes no tile. -/
theorem tiles_editHouse (w : World) (names : ρ) (e : HouseEdit) :
    (editHouse (w, names) e).1.graph.tiles = w.graph.tiles :=
  tiles_listBlind.editHouse w names e

/-- An edit of a house keeps the kind and the place of every item. -/
theorem keeps_editHouse (w : World) (names : ρ) (e : HouseEdit) :
    Keeps w (editHouse (w, names) e).1 := by
  have hItems := (keeps_listBlind w).editHouse w names e
  exact hItems.trans (keeps_of_graph (catalog_sleepers_editHouse w names e).1 rfl)

/-- **Edits keep a world sound**, with its catalog and its tiles. -/
theorem keeps_editHouses (edits : List HouseEdit) (w : World) (names : ρ) :
    Keeps w (w.editHouses names edits).1 := by
  induction edits generalizing w names with
  | nil => exact Keeps.refl w
  | cons e edits ih =>
    exact (keeps_editHouse w names e).trans (ih (editHouse (w, names) e).1 (editHouse (w, names) e).2)

end World

/-! ## §4. What edits leave alone. -/

/-- The house as it would be without owner, rent and lists. -/
def House.vacant (h : House) : House :=
  { h with paidUntil := 0, warnings := 0, owner := 0, guests := .empty, subowners := .empty }

/-- The item as it would be without a list of who may pass. -/
def Item.unlisted (i : Item) : Item :=
  { i with variant := i.variant.setList none }

/-- A door without its list is a door. -/
theorem Item.isDoor_unlisted (i : Item) : i.unlisted.isDoor = i.isDoor :=
  Variant.isDoor_eq_of_sameKind (World.sameKind_setList i.variant none)

/-- Dropping the list of a door makes no bed and unmakes none. -/
theorem Item.isBed_unlisted (i : Item) : i.unlisted.isBed = i.isBed :=
  Variant.isBed_eq_of_sameKind (World.sameKind_setList i.variant none)

/-- Dropping the list of a door wakes nobody. -/
theorem Item.sleeper_unlisted (i : Item) : i.unlisted.variant.sleeper = i.variant.sleeper := by
  show (i.variant.setList none).sleeper = _
  cases i.variant <;> rfl

namespace Graph

variable {g g' g'' : Graph}

/-- The items differ in lists of who may pass at most. -/
def SameButLists (g g' : Graph) : Prop :=
  ∀ j, (g'.item? j).map Item.unlisted = (g.item? j).map Item.unlisted

theorem SameButLists.refl (g : Graph) : SameButLists g g :=
  fun _ => rfl

/-- Two changes of lists are one change of lists. -/
theorem SameButLists.trans (h : SameButLists g g') (h' : SameButLists g' g'') :
    SameButLists g g'' :=
  fun j => (h' j).trans (h j)

/-- Being the same but for the lists of doors is blind to them. -/
theorem sameButLists_listBlind : House.ListBlind SameButLists where
  refl := SameButLists.refl
  trans _ _ _ h h' := h.trans h'
  list g door list := by
    intro j
    show ((g.update door _).item? j).map _ = _
    rw [item?_update]
    split_ifs
    · rw [Option.map_map]
      -- A list that is set and taken away again is not seen.
      congr 1
      funext i
      show ({ i with variant := (i.variant.setList list).setList none } : Item) = _
      unfold Item.unlisted
      cases i.variant <;> rfl
    · rfl

/-- A list is no part of a door's number. -/
theorem SameButLists.doorNumber_eq (h : SameButLists g g') (door : ItemId) :
    House.doorNumber g' door = House.doorNumber g door := by
  have hNumber : ∀ o : Option Item, (o.map (·.doorId)).getD 0
      = ((o.map Item.unlisted).map (·.doorId)).getD 0 := by
    intro o
    cases o <;> rfl
  unfold House.doorNumber
  rw [hNumber, h door, ← hNumber]

/-- What is a door stays one when lists change. -/
theorem SameButLists.isDoor_eq (h : SameButLists g g') (door : ItemId) :
    ((g'.item? door).map (·.isDoor)).getD false = ((g.item? door).map (·.isDoor)).getD false := by
  have hDoor : ∀ o : Option Item, (o.map (·.isDoor)).getD false
      = ((o.map Item.unlisted).map (·.isDoor)).getD false := by
    intro o
    cases o with
    | none => rfl
    | some i => exact i.isDoor_unlisted.symm
  rw [hDoor, h door, ← hDoor]

/-- An item is there still, and the same but for its list. -/
theorem SameButLists.exists_unlisted (h : SameButLists g g') {j : ItemId} {i : Item}
    (hi : g.item? j = some i) : ∃ i', g'.item? j = some i' ∧ i'.unlisted = i.unlisted := by
  have hItem := h j
  rw [hi, Option.map_some] at hItem
  exact Option.map_eq_some_iff.1 hItem

/-- An item is still there when lists change, and a door exactly if it was. -/
theorem SameButLists.item?_eq_some (h : SameButLists g g') {j : ItemId} {i : Item}
    (hi : g.item? j = some i) : ∃ i', g'.item? j = some i' ∧ i'.isDoor = i.isDoor := by
  obtain ⟨i', hi', hSame⟩ := h.exists_unlisted hi
  refine ⟨i', hi', ?_⟩
  rw [← i'.isDoor_unlisted, hSame, i.isDoor_unlisted]

/-- A door is found under the same number when lists have changed. -/
theorem SameButLists.doorByNumber_eq (h : SameButLists g g') (house : House) (n : UInt32) :
    house.doorByNumber g' n = house.doorByNumber g n := by
  unfold House.doorByNumber
  simp only [h.doorNumber_eq]

end Graph

namespace House

variable {ρ : Type} [Resolver ρ]

/-- A house that is given to its owner stays as it is. -/
theorem setOwner_self (h : House) (g : Graph) : h.setOwner g h.owner = (h, g) :=
  if_pos rfl

/-- A new owner leaves the rest of the house. -/
theorem vacant_setOwner (h : House) (g : Graph) (owner : UInt32) :
    (h.setOwner g owner).1.vacant = h.vacant := by
  unfold setOwner
  split_ifs <;> rfl

/-- A new list leaves the rest of the house. -/
theorem vacant_setList (h : House) (g : Graph) (list : UInt32) (text : String) (names : ρ) :
    (h.setList g list text names).1.vacant = h.vacant := by
  unfold setList
  split_ifs
  · rfl
  · rfl
  · cases h.doorByNumber g list with
    | none => rfl
    | some door =>
      dsimp only
      split_ifs <;> rfl

end House

namespace World

variable {ρ : Type} [Resolver ρ] {w w' w'' : World}

/-- The worlds differ in owners, rents and lists at most. -/
structure SameFittings (w w' : World) : Prop where
  /-- Houses are the same but for owner, rent and lists. -/
  houses : ∀ id, (w'.house? id).map House.vacant = (w.house? id).map House.vacant
  /-- Items are the same but for lists. -/
  items : Graph.SameButLists w.graph w'.graph

theorem SameFittings.refl (w : World) : SameFittings w w :=
  ⟨fun _ => rfl, .refl _⟩

/-- Two changes that keep the fittings keep them together. -/
theorem SameFittings.trans (h : SameFittings w w') (h' : SameFittings w' w'') :
    SameFittings w w'' :=
  ⟨fun id => (h'.houses id).trans (h.houses id), h.items.trans h'.items⟩

/-- Having the same fittings goes both ways. -/
theorem SameFittings.symm (h : SameFittings w w') : SameFittings w' w :=
  ⟨fun id => (h.houses id).symm, fun j => (h.items j).symm⟩

/-- Every house is one that was there, but for owner, rent and lists. -/
theorem SameFittings.house?_eq_some (h : SameFittings w w') {id : UInt32} {house' : House}
    (hHouse : w'.house? id = some house') :
    ∃ house, w.house? id = some house ∧ house'.vacant = house.vacant := by
  have hSame := h.houses id
  rw [hHouse, Option.map_some] at hSame
  obtain ⟨house, hGet, hVacant⟩ := Option.map_eq_some_iff.1 hSame.symm
  exact ⟨house, hGet, hVacant.symm⟩

/-- An edit of a house keeps its doors, its beds and their numbers. -/
theorem sameFittings_editHouse (w : World) (names : ρ) (e : HouseEdit) :
    SameFittings w (editHouse (w, names) e).1 := by
  -- Of a house an edit writes owner, rent and lists, which are no part of it when it is vacant.
  have hVacant : ∀ h, (e.apply h w.graph names).1.vacant = h.vacant := by
    intro h
    cases e with
    | owner house owner => exact h.vacant_setOwner w.graph owner
    | list house list text => exact h.vacant_setList w.graph list text names
    | paid house time => rfl
    | warnings house number => rfl
    | row row => exact h.vacant_setOwner w.graph row.owner
  constructor
  · intro id
    rw [house?_editHouse]
    split_ifs with hid
    · rw [hid, Option.map_map]
      congr 1
      funext h
      exact hVacant h
    · rfl
  · exact Graph.sameButLists_listBlind.editHouse w names e

/-- **Edits change owners, rents and lists only.** -/
theorem sameFittings_editHouses (edits : List HouseEdit) (w : World) (names : ρ) :
    SameFittings w (w.editHouses names edits).1 := by
  induction edits generalizing w names with
  | nil => exact .refl w
  | cons e edits ih =>
    exact (sameFittings_editHouse w names e).trans
      (ih (editHouse (w, names) e).1 (editHouse (w, names) e).2)

/-- Every house stands under its own number. -/
def Numbered (w : World) : Prop :=
  ∀ id h, w.house? id = some h → h.id = id

/-- Houses stand under their own numbers after a change that keeps the fittings. -/
theorem Numbered.of_sameFittings (hw : w.Numbered) (h : SameFittings w w') : w'.Numbered := by
  intro id house' hHouse
  obtain ⟨house, hGet, hVacant⟩ := h.house?_eq_some hHouse
  have hId : house'.vacant.id = house.vacant.id := congrArg House.id hVacant
  exact hId.trans (hw id house hGet)

end World

end Homestead
