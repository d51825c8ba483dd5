/-
  Homestead.Proofs.World.DoorLists
  ────────────────────────────────
  **THE LIST OF A DOOR GOES BY THE NUMBER ON THE MAP.**

  A program loads houses first and house tiles after them.  So the rows of
  lists find the doors under the numbers that the map gives them, and only
  then a row of a tile may give a door another number.  A door keeps the
  list that it got, as long as it stays a door; the list that is stored
  under its new number was for another door, or for none and is lost.

  Main results:
    * `Change.advances` — what a change makes of every item;
    * `lastRow?_door` — the row that is for a door;
    * `door_lists_go_by_the_map` — the lists of doors once all is loaded.
-/
import Homestead.Proofs.House.Fixtures
import Homestead.Proofs.House.Tenancy
import Homestead.Proofs.World.Fates
import Homestead.Proofs.World.HousesReturn
import Homestead.Proofs.World.Reached

namespace Homestead

/-! ## §1. Doors that stay doors. -/

/-- Doors decay to doors only. -/
def Catalog.DoorsStayDoors (c : Catalog) : Prop :=
  ∀ id t target t', c.get? id = some t → t.isDoor = true → t.decayTo = some target →
    c.get? target = some t' → t'.isDoor = true

/-- The item lets the same people pass, or has no list any more. -/
def Item.KeepsList (i i' : Item) : Prop :=
  i'.variant.list? = i.variant.list? ∨ i'.variant.list? = none

/-- A door is a door still, and lets the same people pass. -/
def Item.KeepsDoor (i i' : Item) : Prop :=
  i.isDoor = true → i'.isDoor = true ∧ i'.variant.list? = i.variant.list?

namespace Item

variable {c : Catalog} {i i' i'' : Item}

/-- Two changes that keep a list or drop it do so together. -/
theorem KeepsList.trans (h : i.KeepsList i') (h' : i'.KeepsList i'') : i.KeepsList i'' := by
  rcases h' with hSame | hNone
  · rw [KeepsList, hSame]
    exact h
  · exact .inr hNone

/-- Two changes that keep doors and their lists do so together. -/
theorem KeepsDoor.trans (h : i.KeepsDoor i') (h' : i'.KeepsDoor i'') : i.KeepsDoor i'' := by
  intro hDoor
  obtain ⟨hDoor', hList⟩ := h hDoor
  obtain ⟨hDoor'', hList'⟩ := h' hDoor'
  exact ⟨hDoor'', hList'.trans hList⟩

/-- A firm item that is a door is one still, with its list. -/
theorem Firm.keepsDoor (h : i.Firm i') : i.KeepsDoor i' :=
  fun hDoor => ⟨h.isDoor_eq.trans hDoor, h.list⟩

/-- A new variant has no list. -/
theorem list?_ofGroup (group : Group) : (Variant.ofGroup group).list? = none := by
  cases group <;> rfl

/-- An item that becomes a type keeps its list, or has none any more. -/
theorem keepsList_become (c : Catalog) (i : Item) (newType : TypeId) :
    i.KeepsList (i.become c newType) := by
  rcases i.variant_become c newType with hSame | ⟨t, _, _, hNew⟩
  · exact .inl (by rw [hSame])
  · exact .inr (by rw [hNew]; exact list?_ofGroup t.group)

/-- A door that gets another type is a door still, if the type is one of doors. -/
theorem keepsDoor_become {newType : TypeId} {t : ItemType} (hType : c.get? newType = some t)
    (hDoor : t.isDoor = true) (i : Item) : i.KeepsDoor (i.become c newType) := by
  intro hHere
  have hSame := Fixture.door.variant_become hType hDoor hHere
  exact ⟨by rw [isDoor, hSame]; exact hHere, by rw [hSame]⟩

end Item

namespace World

variable {A : Binding → Prop} {w w' : World}

/-- **What a change makes of every item**: it stays firm, or gets another type. -/
theorem Change.advances {R : Item → Item → Prop} (hw : w.Sound)
    (hFirm : ∀ i i' : Item, i.Firm i' → R i i')
    (hDecayed : ∀ id i target, w.graph.item? id = some i → w.decayTarget? id = some target →
      R i (i.become w.catalog target))
    (hBound : ∀ i t newType, w.catalog.get? newType = some t →
      t.isDoor = true ∧ i.isDoor = true ∨ t.isBed = true ∧ i.isBed = true →
      R i (i.become w.catalog newType))
    (h : Change A w w') : w.graph.Advances R w'.graph := by
  intro id i hi
  obtain ⟨i', hi', hFate⟩ := h.fate hw hi
  refine ⟨i', hi', ?_⟩
  cases hFate with
  | same hSame => exact hFirm i i' hSame.firm
  | elapsed n => exact hFirm i _ (Item.firm_of_variant rfl rfl)
  | started _ => exact hFirm i _ (Item.firm_of_variant rfl rfl)
  | updated r _ _ => exact hFirm i _ (Item.firm_applyAll w.catalog r.updates i)
  -- Two fates give another type: the end of the decay, and a record of another type.
  | decayed target hTarget => exact hDecayed id i target hi hTarget
  | bound given t _ _ hType hKind => exact hBound i t given.record.typeId hType hKind

/-- A single change keeps each list, or drops it. -/
theorem Change.keepsList (hw : w.Sound) (h : Change A w w') :
    w.graph.Advances Item.KeepsList w'.graph :=
  h.advances hw (fun _ _ hFirm => .inl hFirm.list)
    (fun _ i target _ _ => i.keepsList_become w.catalog target)
    fun i _ newType _ _ => i.keepsList_become w.catalog newType

/-- A single change keeps doors and their lists, where doors decay to doors only. -/
theorem Change.keepsDoor (hw : w.Sound) (hDoors : w.catalog.DoorsStayDoors) (h : Change A w w') :
    w.graph.Advances Item.KeepsDoor w'.graph := by
  refine h.advances hw (fun _ _ hFirm => hFirm.keepsDoor) ?_ ?_
  · intro id i target hi hTarget hDoor
    obtain ⟨i', t, t', hi', ht, hTo, _, ht'⟩ := decayTarget?_eq_some hTarget
    obtain rfl := Option.some_inj.1 (hi.symm.trans hi')
    -- A door is of a type of doors, because items are in the variant of their type.
    have hTypeDoor := Fixture.door.ofType_of_typed (hw.typed id i hi) ht hDoor
    exact Item.keepsDoor_become ht' (hDoors i.typeId t target t' ht hTypeDoor hTo ht') i hDoor
  · intro i t newType hType hKind
    rcases hKind with ⟨hTypeDoor, _⟩ | ⟨_, hBed⟩
    · exact Item.keepsDoor_become hType hTypeDoor i
    · intro hDoor
      cases Fixture.eq_of_ofVariant (f := .door) (g := .bed) hDoor hBed

/-- Every item lets the same people pass after a run of changes, or has no list any more. -/
theorem Changes.keepsList (hw : w.Sound) (h : Changes A w w') :
    w.graph.Advances Item.KeepsList w'.graph := by
  refine (h.keeps (P := fun v => v.Sound ∧ w.graph.Advances Item.KeepsList v.graph)
    ⟨hw, Graph.advances_of_item? (fun _ => .inl rfl) fun _ _ hi => hi⟩ ?_).2
  rintro v v' hChange ⟨hSound, hSoFar⟩
  exact ⟨hChange.sound hSound,
    hSoFar.trans (fun _ _ _ h h' => h.trans h') (hChange.keepsList hSound)⟩

/-- Where doors decay to doors only, every door is a door still after a run of changes, and lets the
same people pass. -/
theorem Changes.keepsDoor (hw : w.Sound) (hDoors : w.catalog.DoorsStayDoors) (h : Changes A w w') :
    w.graph.Advances Item.KeepsDoor w'.graph := by
  refine (h.keeps (P := fun v => v.Sound ∧ v.catalog = w.catalog
    ∧ w.graph.Advances Item.KeepsDoor v.graph)
    ⟨hw, rfl, Graph.advances_of_item? (fun _ hDoor => ⟨hDoor, rfl⟩) fun _ _ hi => hi⟩ ?_).2.2
  rintro v v' hChange ⟨hSound, hCatalog, hSoFar⟩
  exact ⟨hChange.sound hSound, hChange.catalog.trans hCatalog,
    hSoFar.trans (fun _ _ _ h h' => h.trans h') (hChange.keepsDoor hSound (hCatalog ▸ hDoors))⟩

end World

/-! ## §2. The row for a door. -/

/-- The list of a door is read from its variant. -/
theorem House.doorList?_eq {g : Graph} {door : ItemId} {i : Item} (hItem : g.item? door = some i) :
    House.doorList? g door = i.variant.list? := by
  unfold House.doorList?
  rw [hItem, Option.bind_some]

/-- The text under the number of a door is that of the door's list. -/
theorem House.listText?_door {g : Graph} {h : House} {door : ItemId} {n : UInt8}
    (hDoor : h.doorByNumber g n.toUInt32 = some door) :
    h.listText? g n.toUInt32 = (House.doorList? g door).map (·.text) := by
  obtain ⟨hGuests, hSubowners⟩ := World.doorNumber_ne n
  unfold House.listText?
  rw [if_neg hGuests, if_neg hSubowners, hDoor, Option.bind_some]

/-- The text of the last row for a list of a house. -/
def ListRow.lastText? (rows : List ListRow) (house list : UInt32) : Option String :=
  (rows.reverse.find? fun row => row.house = house ∧ row.list = list).map (·.text)

namespace World

variable {ρ : Type} [Resolver ρ] {w w' : World} {id : UInt32} {h : House} {door : ItemId}

/-- On the map a number leads to a door if it is the door's own, and no door before it has it. -/
theorem Fitted.placeOf?_eq_door_iff (hw : Fitted w) (hHouse : w.house? id = some h)
    (hMem : door ∈ h.doors) {house list : UInt32} :
    w.placeOf? house list = some (.door door) ↔ house = id
      ∧ list = (House.doorNumber w.graph door).toUInt32
      ∧ h.doorByNumber w.graph (House.doorNumber w.graph door).toUInt32 = some door := by
  constructor
  · intro hPlace
    obtain ⟨owner, hOwner, hMem', hList, hFirst⟩ := placeOf?_eq_door hPlace
    -- The door belongs to one house only.
    obtain rfl := hw.apart house id owner h hOwner hHouse door hMem' hMem
    obtain rfl := Option.some_inj.1 (hOwner.symm.trans hHouse)
    rw [hList] at hFirst
    exact ⟨rfl, hList, hFirst⟩
  · rintro ⟨rfl, rfl, hFirst⟩
    -- No number of a door is mistaken for the guests or the sub-owners.
    obtain ⟨hGuests, hSubowners⟩ := doorNumber_ne (House.doorNumber w.graph door)
    obtain ⟨i, hi, hDoor⟩ := (hw.doors house h hHouse).2 door hMem
    unfold placeOf?
    rw [hHouse, Option.bind_some, if_neg hGuests, if_neg hSubowners, hFirst, Option.filter_some,
      if_pos (by rw [hi]; exact hDoor)]
    rfl

/-- **The row for a door** is the last one with the number that the door has on the map. -/
theorem Fitted.lastRow?_door (hw : Fitted w) (hHouse : w.house? id = some h)
    (hMem : door ∈ h.doors) (rows : List ListRow) :
    (w.lastRow? rows (.door door)).map (·.text)
      = if h.doorByNumber w.graph (House.doorNumber w.graph door).toUInt32 = some door then
          ListRow.lastText? rows id (House.doorNumber w.graph door).toUInt32
        else none := by
  unfold lastRow? ListRow.lastText?
  simp only [hw.placeOf?_eq_door_iff hHouse hMem]
  split_ifs with hFirst
  · simp only [hFirst, and_true]
  · simp only [hFirst, and_false, decide_false]
    rw [List.find?_eq_none.2 fun _ _ => Bool.false_ne_true]
    rfl

/-! ## §3. Loading everything. -/

/-- No door has a list before rows of lists are loaded. -/
theorem listAt?_door_restoreHouses (rows : List HouseRow)
    (hNone : w.listAt? (.door door) = none) :
    (w.restoreHouses rows).listAt? (.door door) = none := by
  induction rows generalizing w with
  | nil => exact hNone
  | cons row rows ih =>
    refine ih (w := w.restoreHouse row) ?_
    rcases listAt?_restoreHouse w row (.door door) with hKept | hCleared
    · exact hKept.trans hNone
    · exact hCleared

/-- Once houses are loaded, every door has the list that is in the row for it. -/
theorem text_doorList?_of_loadHouses (hw : Fitted w) {a : Archive} {names names' : ρ}
    {houses : Loaded HouseReport} (h : w.loadHouses a names = .ok (houses, names'))
    (door : ItemId) :
    ∃ rows, a.listRows = .ok rows
      ∧ (House.doorList? houses.world.graph door).map (·.text)
        = (w.lastRow? rows (.door door)).map (·.text) := by
  obtain ⟨rows, lists, _, hLists, _, hEdits⟩ := loadHouses_eq_ok h
  rw [editHouses_append, editHouses_rows, editHouses_lists] at hEdits
  have hWorld : houses.world = ((w.restoreHouses rows).restoreLists names lists).1 :=
    (congrArg Prod.fst hEdits).symm
  have hSame : SameFittings w (w.restoreHouses rows) := by
    have hRows := sameFittings_editHouses (rows.map .row) w names
    rwa [editHouses_rows] at hRows
  -- On the map no door has a list yet, so what is there afterwards comes from the rows.
  have hNone : w.listAt? (.door door) = none := by
    show (w.graph.item? door).bind _ = none
    rw [Option.bind_eq_none_iff]
    exact fun i hi => hw.unlisted door i hi
  have hLast := listAt?_restoreLists (P := fun _ : ρ => True) (fun _ _ _ => trivial) lists
    (w.restoreHouses rows) names trivial (.door door)
  rw [hSame.lastRow?_eq, ← hWorld] at hLast
  refine ⟨lists, hLists, ?_⟩
  show (houses.world.listAt? (.door door)).map _ = _
  cases hRow : w.lastRow? lists (.door door) with
  | some row =>
    rw [hRow] at hLast
    obtain ⟨_, _, hNow⟩ := hLast
    rw [hNow, Option.map_some, Option.map_some, AccessList.text_ofText]
  | none =>
    rw [hRow] at hLast
    rw [show houses.world.listAt? (.door door) = _ from hLast,
      listAt?_door_restoreHouses rows hNone]
    rfl

/-- **The list of a door goes by the number that the map gives it.**  Once houses and then house
tiles are loaded, a number leads to the door that has the number then; but the list of that door is
the last one that is stored under its number on the map, if no door before it has that number there.
So it is the list that is stored under the number if the number leads to this door on the map too.
A door that decays to something else may lose its list. -/
theorem door_lists_go_by_the_map {c : Catalog} {b : Blueprint} {a : Archive} {names names' : ρ}
    {houses : Loaded HouseReport} {items : Loaded LoadReport} {n : UInt8}
    (hBuilt : (ofBlueprint c b).1 = .ok w)
    (hHouses : w.loadHouses a names = .ok (houses, names'))
    (hItems : houses.world.loadItems a = .ok items) (hHouse : items.world.house? id = some h)
    (hDoor : h.doorByNumber items.world.graph n.toUInt32 = some door) :
    ∃ rows, a.listRows = .ok rows
      ∧ (c.DoorsStayDoors → h.doorByNumber w.graph n.toUInt32 = some door →
        h.listText? items.world.graph n.toUInt32 = ListRow.lastText? rows id n.toUInt32)
      ∧ (c.DoorsStayDoors → h.listText? items.world.graph n.toUInt32
        = if h.doorByNumber w.graph (House.doorNumber w.graph door).toUInt32 = some door then
            ListRow.lastText? rows id (House.doorNumber w.graph door).toUInt32
          else none)
      ∧ (∀ text, h.listText? items.world.graph n.toUInt32 = some text →
        h.doorByNumber w.graph (House.doorNumber w.graph door).toUInt32 = some door
          ∧ ListRow.lastText? rows id (House.doorNumber w.graph door).toUInt32 = some text) := by
  have hFitted := fitted_ofBlueprint hBuilt
  have hDrawn := drawn_ofBlueprint hBuilt
  obtain ⟨rows, hRows, hText⟩ := text_doorList?_of_loadHouses hFitted hHouses door
  obtain ⟨edits, hEdits⟩ := edits_of_loadHouses hHouses
  have hSame : SameFittings w houses.world := hEdits ▸ sameFittings_editHouses edits w names
  have hKeeps : Keeps w houses.world := hEdits ▸ keeps_editHouses edits w names
  have hSound := hKeeps.sound hDrawn.sound
  have hChanges := changes_loadItems hSound hItems
  -- The house is the one of the map, with the same doors.
  have hHouse₁ : houses.world.house? id = some h := by
    rw [← hHouse]
    unfold house?
    rw [hChanges.houses]
  obtain ⟨old, hOld, hVacant⟩ := hSame.house?_eq_some hHouse₁
  have hDoors : h.doors = old.doors := House.doors_eq_of_vacant hVacant
  have hFirst : ∀ m, old.doorByNumber w.graph m = h.doorByNumber w.graph m := by
    intro m
    unfold House.doorByNumber
    rw [hDoors]
  have hMem : door ∈ old.doors := hDoors ▸ List.mem_of_find?_eq_some hDoor
  -- The list of the door is the one of its row, and loading house tiles reads no lists.
  rw [hFitted.lastRow?_door hOld hMem rows, hFirst] at hText
  obtain ⟨i, hi, hIsDoor⟩ := (hFitted.doors id old hOld).2 door hMem
  obtain ⟨i₁, hi₁, hDoor₁⟩ := hSame.items.item?_eq_some hi
  have hExact : c.DoorsStayDoors → h.listText? items.world.graph n.toUInt32
      = if h.doorByNumber w.graph (House.doorNumber w.graph door).toUInt32 = some door then
          ListRow.lastText? rows id (House.doorNumber w.graph door).toUInt32
        else none := by
    intro hStay
    have hCatalog : houses.world.catalog = c := hKeeps.catalog.trans hDrawn.catalog
    obtain ⟨i₂, hi₂, hKept⟩ := hChanges.keepsDoor hSound (hCatalog ▸ hStay) door i₁ hi₁
    obtain ⟨_, hList⟩ := hKept (hDoor₁.trans hIsDoor)
    rw [House.listText?_door hDoor, House.doorList?_eq hi₂, hList, ← House.doorList?_eq hi₁, hText]
  refine ⟨rows, hRows, ?_, hExact, ?_⟩
  · intro hStay hOnMap
    have hNumber : (House.doorNumber w.graph door).toUInt32 = n.toUInt32 := by
      have hFound := List.find?_some hOnMap
      exact eq_of_beq hFound
    rw [hExact hStay, hNumber, if_pos hOnMap]
  · -- A list that is still there is the one that the door had, whatever became of the door.
    intro text hHere
    obtain ⟨i₂, hi₂, hKept⟩ := hChanges.keepsList hSound door i₁ hi₁
    rw [House.listText?_door hDoor, House.doorList?_eq hi₂] at hHere
    rcases hKept with hSameList | hLost
    · rw [hSameList, ← House.doorList?_eq hi₁, hText] at hHere
      split_ifs at hHere with hOwn
      exact ⟨hOwn, hHere⟩
    · rw [hLost] at hHere
      cases hHere

/-! ## §4. A door with two numbers. -/

/-- In the catalog of doors nothing decays. -/
theorem doorCatalog_doorsStayDoors : doorCatalog.DoorsStayDoors := by
  intro id t target t' ht _ hDecays
  have hGet : doorCatalog.get? id
      = if compare 1 id = .eq then some { id := 1, group := .door } else none :=
    Std.TreeMap.getElem?_insert
  rw [hGet] at ht
  split_ifs at ht
  obtain rfl := Option.some_inj.1 ht
  cases hDecays

/-- A house with a door that the map gives the number 5. -/
def fifthDoor : Blueprint where
  houses := [{ id := 1, name := "", entry := .zero }]
  tiles := [⟨.zero, some 1, [doorEntry 5]⟩]

/-- The world of that house. -/
def fifthDoorWorld : World :=
  (ofBlueprint doorCatalog fifthDoor).1.toOption.getD {}

/-- An archive from when the door had the number 2, with its list. -/
def secondDoorArchive : Archive where
  tables := {
    houses := Tables.withHouses {} [{ id := 1, owner := 7 }]
    lists := [(1, 2, "Eremo")]
    tiles := [(1, [0, 0, 0, 0, 0, 1, 0, 0, 0, 1, 0, 14, 2, 0])] }

/-- The world once houses are loaded. -/
def fifthDoorHouses : Loaded HouseReport × NameSource :=
  (fifthDoorWorld.loadHouses secondDoorArchive oneName).toOption.getD (⟨{}, {}, []⟩, oneName)

/-- The world once everything is loaded. -/
def fifthDoorItems : Loaded LoadReport :=
  (fifthDoorHouses.1.world.loadItems secondDoorArchive).toOption.getD ⟨{}, {}, []⟩

/-- The house once everything is loaded. -/
def fifthDoorHouse : House :=
  (fifthDoorItems.world.house? 1).getD { id := 1 }

/-- The door has the number 2 again, but the list that is stored under 2 is lost. -/
theorem door_lists_go_by_the_map_fifthDoor :
    (ofBlueprint doorCatalog fifthDoor).1 = .ok fifthDoorWorld
      ∧ fifthDoorWorld.loadHouses secondDoorArchive oneName
        = .ok (fifthDoorHouses.1, fifthDoorHouses.2)
      ∧ fifthDoorHouses.1.world.loadItems secondDoorArchive = .ok fifthDoorItems
      ∧ fifthDoorItems.world.house? 1 = some fifthDoorHouse
      ∧ fifthDoorHouse.doorByNumber fifthDoorItems.world.graph (2 : UInt8).toUInt32 = some 0
      ∧ ∃ rows, secondDoorArchive.listRows = .ok rows ∧ ListRow.lastText? rows 1 2 = some "Eremo"
        ∧ fifthDoorHouse.listText? fifthDoorItems.world.graph (2 : UInt8).toUInt32 = none := by
  have hBuilds : (ofBlueprint doorCatalog fifthDoor).1.toOption.isSome = true := by
    decide +kernel
  have hBuilt : (ofBlueprint doorCatalog fifthDoor).1 = .ok fifthDoorWorld := by
    unfold fifthDoorWorld
    exact eq_ok_of_isSome (ofBlueprint doorCatalog fifthDoor).1 ({} : World) hBuilds
  have hLoads : (fifthDoorWorld.loadHouses secondDoorArchive oneName).toOption.isSome = true := by
    decide +kernel
  have hHouses : fifthDoorWorld.loadHouses secondDoorArchive oneName
      = .ok (fifthDoorHouses.1, fifthDoorHouses.2) := by
    rw [Prod.mk.eta]
    unfold fifthDoorHouses
    exact eq_ok_of_isSome _ _ hLoads
  have hReturns : (fifthDoorHouses.1.world.loadItems secondDoorArchive).toOption.isSome = true := by
    decide +kernel
  have hItems : fifthDoorHouses.1.world.loadItems secondDoorArchive = .ok fifthDoorItems := by
    unfold fifthDoorItems
    exact eq_ok_of_isSome _ _ hReturns
  have hHouse : fifthDoorItems.world.house? 1 = some fifthDoorHouse := by
    decide +kernel
  have hDoor : fifthDoorHouse.doorByNumber fifthDoorItems.world.graph (2 : UInt8).toUInt32
      = some 0 := by
    decide +kernel
  -- By the account of lists, the text under 2 went to another door.
  obtain ⟨rows, hRows, _, hExact, _⟩ :=
    door_lists_go_by_the_map hBuilt hHouses hItems hHouse hDoor
  have hStored : secondDoorArchive.listRows = .ok [⟨1, 2, "Eremo"⟩] :=
    Tables.listRows_of_stored rfl
  obtain rfl := Except.ok.inj (hRows.symm.trans hStored)
  refine ⟨hBuilt, hHouses, hItems, hHouse, hDoor, _, hRows, by decide +kernel, ?_⟩
  rw [hExact doorCatalog_doorsStayDoors]
  decide +kernel

end World

end Homestead
