/-
  Homestead.Proofs.House.Tenancy
  ──────────────────────────────
  **WHO HAS A HOUSE, AND WHOM THE LISTS LET IN.**

  Of the rows of a house the last one says who has it and how the rent
  stands.  Every list that anybody ever wrote was written at the place that
  its number led to, so the rows of all lists of a world say again what is
  at each place: two doors with one number never both have a list.  A list
  without text lets in nobody, and no list does the same.

  Main results:
    * `tenancy?_restoreHouses` — who has a house once rows are loaded;
    * `Written.of_edits` — where the lists of a house can be;
    * `House.SameTenants` — houses that are the same to everybody;
    * `listIn_restored` — rows of lists bring back every list;
    * `sameTenants_restored` — all rows bring back every house.
-/
import Homestead.Proofs.Blueprint.Fitted
import Homestead.Proofs.House.Lists

namespace Homestead

/-! ## §1. Who has a house. -/

/-- Who has the house, the time up to which the rent is paid, and the warnings about it. -/
def House.tenancy (h : House) : UInt32 × Int × UInt32 :=
  (h.owner, h.paidUntil, h.warnings)

/-- A house has the owner that it is given. -/
theorem House.owner_setOwner (h : House) (g : Graph) (owner : UInt32) :
    (h.setOwner g owner).1.owner = owner := by
  unfold setOwner
  split_ifs with hSame
  · exact hSame
  · rfl
  · rfl

/-- A list that is set is no matter of the tenancy. -/
theorem World.SetList.tenancy_eq {h h' : House} {g g' : Graph} {list : UInt32}
    {access : AccessList} (hSet : SetList h g list access h' g') : h'.tenancy = h.tenancy := by
  cases hSet with
  | guests => rfl
  | subowners => rfl
  | none => rfl
  | door => rfl

/-- Houses that are the same when vacant have the same doors. -/
theorem House.doors_eq_of_vacant {h h' : House} (hVacant : h'.vacant = h.vacant) :
    h'.doors = h.doors := by
  have hDoors : h'.vacant.doors = h.vacant.doors := congrArg House.doors hVacant
  exact hDoors

namespace World

variable {ρ : Type} [Resolver ρ] {w w' : World}

/-- Who has the house with a number. -/
def tenancy? (w : World) (id : UInt32) : Option (UInt32 × Int × UInt32) :=
  (w.house? id).map House.tenancy

/-- Rows of lists do not say who has a house. -/
theorem tenancy?_restoreLists (rows : List ListRow) (w : World) (names : ρ) (id : UInt32) :
    (w.restoreLists names rows).1.tenancy? id = w.tenancy? id := by
  induction rows generalizing w names with
  | nil => rfl
  | cons row rows ih =>
    have hRow : (editHouse (w, names) row.edit).1.tenancy? id = w.tenancy? id := by
      unfold tenancy?
      rw [house?_editHouse]
      split_ifs with hid
      · rw [hid, Option.map_map]
        congr 1
        funext h
        -- Whichever list the row is of, owner, rent and warnings stay.
        exact (setList_cases h w.graph row.list row.text names).tenancy_eq
      · rfl
    exact (ih (editHouse (w, names) row.edit).1 (editHouse (w, names) row.edit).2).trans hRow

/-- A row is restored into its own house, if that is in the register. -/
theorem tenancy?_restoreHouse (w : World) (row : HouseRow) (id : UInt32) :
    (w.restoreHouse row).tenancy? id = if row.id = id then
        (w.tenancy? id).map fun _ => (row.owner, row.paid, row.warnings)
      else w.tenancy? id := by
  have hHouse := house?_editHouse w ({ find? := fun _ _ => none } : NameSource) (.row row) id
  unfold tenancy?
  by_cases hid : row.id = id
  · -- Restoring sets the owner first, and then rent and warnings.
    have hHere : (w.restoreHouse row).house? id = (w.house? id).map fun h =>
        { (h.setOwner w.graph row.owner).1 with
          paidUntil := row.paid, warnings := row.warnings } := by
      rw [← hid] at hHouse ⊢
      exact hHouse.trans (if_pos rfl)
    rw [if_pos hid, hHere, Option.map_map, Option.map_map]
    congr 1
    funext h
    show ((h.setOwner w.graph row.owner).1.owner, _) = _
    rw [h.owner_setOwner]
    rfl
  · rw [if_neg hid, show (w.restoreHouse row).house? id = w.house? id from
      hHouse.trans (if_neg (Ne.symm hid))]

/-- **Of the rows of a house the last one counts.** -/
theorem tenancy?_restoreHouses (rows : List HouseRow) (w : World) (id : UInt32) :
    (w.restoreHouses rows).tenancy? id = match rows.reverse.find? (·.id = id) with
      | some row => (w.tenancy? id).map fun _ => (row.owner, row.paid, row.warnings)
      | none => w.tenancy? id := by
  induction rows using List.reverseRecOn with
  | nil => rfl
  | append_singleton rows row ih =>
    have hLast : w.restoreHouses (rows ++ [row]) = (w.restoreHouses rows).restoreHouse row :=
      List.foldl_append
    rw [hLast, tenancy?_restoreHouse, ih, List.reverse_concat, List.find?_cons]
    -- The last row is the first one from behind.
    by_cases hid : row.id = id
    · rw [if_pos hid, decide_eq_true hid]
      cases rows.reverse.find? (·.id = id) with
      | none => rfl
      | some other => exact Option.map_map _ _ _
    · rw [if_neg hid, decide_eq_false hid]

end World

/-! ## §2. Whom the lists let in. -/

/-- An empty list lets nobody in. -/
theorem AccessList.admits_empty (visitor : Visitor) : empty.admits visitor = false := by
  unfold admits
  cases visitor.guild <;> rfl

/-- Reading an empty text names nobody. -/
theorem AccessList.ofText_blank {ρ : Type} [Resolver ρ] (names : ρ) :
    (ofText "" names).1 = empty :=
  rfl

namespace House

/-- The lists of a house, when a door without a list has one that lets in nobody. -/
theorem lists_eq (h : House) (g : Graph) :
    h.lists g = ((guestList, h.guests.text) :: (subownerList, h.subowners.text)
      :: h.doors.map fun door =>
        ((doorNumber g door).toUInt32, ((doorList? g door).getD .empty).text)).filter
      (·.2 != "") := by
  have hDoors : ∀ doors : List ItemId,
      (doors.filterMap fun door =>
        (doorList? g door).map fun list => ((doorNumber g door).toUInt32, list.text)).filter
          (·.2 != "")
        = (doors.map fun door =>
          ((doorNumber g door).toUInt32, ((doorList? g door).getD .empty).text)).filter
          (·.2 != "") := by
    intro doors
    induction doors with
    | nil => rfl
    | cons door doors ih =>
      rw [List.map_cons, List.filter_cons, ← ih]
      -- A door without a list has an empty text, which the filter drops.
      cases hList : doorList? g door with
      | none =>
        rw [List.filterMap_cons_none (by rw [hList]; rfl), Option.getD_none,
          if_neg (by simp [AccessList.empty])]
      | some list =>
        rw [List.filterMap_cons_some (by rw [hList]; rfl), List.filter_cons]
        rfl
  unfold lists
  simp only [List.filter_cons, hDoors]

/-- A door opens for those that the house lets in and for those on the list of the door. -/
theorem canUseDoor_eq (h : House) (g : Graph) (door : ItemId) (visitor : Visitor) :
    h.canUseDoor g door visitor = ((h.accessLevel visitor).opensDoors
      || ((doorList? g door).getD .empty).admits visitor) := by
  unfold canUseDoor
  cases doorList? g door with
  | none => rw [Option.any_none, Option.getD_none, AccessList.admits_empty]
  | some list => rfl

/-- The houses are the same to everybody: the same people have them, pay for them and may enter
them and pass their doors. -/
structure SameTenants (h : House) (g : Graph) (h' : House) (g' : Graph) : Prop where
  /-- The owner is the same. -/
  owner : h'.owner = h.owner
  /-- The rent is paid up to the same time. -/
  paid : h'.paidUntil = h.paidUntil
  /-- The warnings are the same. -/
  warnings : h'.warnings = h.warnings
  /-- The lists with a text in them are the same. -/
  lists : h'.lists g' = h.lists g
  /-- Every visitor is the same to the house. -/
  access : ∀ visitor, h'.accessLevel visitor = h.accessLevel visitor
  /-- The doors are the same. -/
  doors : h'.doors = h.doors
  /-- They have the same numbers. -/
  numbers : ∀ door, doorNumber g' door = doorNumber g door
  /-- Every visitor may use the same doors. -/
  use : ∀ door visitor, h'.canUseDoor g' door visitor = h.canUseDoor g door visitor

end House

namespace World

variable {w w' w₀ : World}

/-- The list at a place; at a place without a list it is the one that lets in nobody. -/
def listIn (w : World) (place : ListPlace) : AccessList :=
  (w.listAt? place).getD .empty

/-- The list of guests stands in the house. -/
theorem listIn_guests {id : UInt32} {h : House} (hHouse : w.house? id = some h) :
    w.listIn (.guests id) = h.guests := by
  simp [listIn, listAt?, hHouse]

/-- The list of subowners stands in the house. -/
theorem listIn_subowners {id : UInt32} {h : House} (hHouse : w.house? id = some h) :
    w.listIn (.subowners id) = h.subowners := by
  simp [listIn, listAt?, hHouse]

/-- Houses with the same fittings, tenancy and lists are the same to everybody. -/
theorem SameFittings.sameTenants (h : SameFittings w w') {id : UInt32} {house : House}
    (hHouse : w.house? id = some house) (hTenancy : w'.tenancy? id = some house.tenancy)
    (hLists : ∀ place, w'.listIn place = w.listIn place) :
    ∃ house', w'.house? id = some house' ∧ house.SameTenants w.graph house' w'.graph := by
  obtain ⟨house', hHouse', hVacant⟩ := h.symm.house?_eq_some hHouse
  have hSame : house'.tenancy = house.tenancy := by
    unfold tenancy? at hTenancy
    rw [hHouse', Option.map_some] at hTenancy
    exact Option.some_inj.1 hTenancy
  have hOwner : house'.owner = house.owner := congrArg (·.1) hSame
  have hGuests : house'.guests = house.guests := by
    rw [← listIn_guests hHouse', hLists, listIn_guests hHouse]
  have hSubowners : house'.subowners = house.subowners := by
    rw [← listIn_subowners hHouse', hLists, listIn_subowners hHouse]
  have hDoors : house'.doors = house.doors := House.doors_eq_of_vacant hVacant.symm
  -- The lists of the house and of its doors are all places of lists.
  have hDoorList : ∀ door, (House.doorList? w'.graph door).getD .empty
      = (House.doorList? w.graph door).getD .empty := fun door => hLists (.door door)
  have hNumbers := fun door => h.items.doorNumber_eq door
  have hAccess : ∀ visitor, house'.accessLevel visitor = house.accessLevel visitor := by
    intro visitor
    unfold House.accessLevel
    rw [hOwner, hGuests, hSubowners]
  refine ⟨house', hHouse', hOwner, congrArg (·.2.1) hSame, congrArg (·.2.2) hSame, ?_, hAccess,
    hDoors, hNumbers, ?_⟩
  · simp only [House.lists_eq, hGuests, hSubowners, hDoors, hNumbers, hDoorList]
  · intro door visitor
    rw [House.canUseDoor_eq, House.canUseDoor_eq, hAccess, hDoorList]

/-! ## §3. Where lists were written. -/

/-- What is at a place lets in nobody, or was written there under a number that leads to it. -/
def Written (w : World) (names : NameSource) (place : ListPlace) : Prop :=
  w.listIn place = .empty ∨ ∃ house list text, w.placeOf? house list = some place
    ∧ w.listIn place = (AccessList.ofText text names).1

/-- An edit of a house leaves a list, empties it, or writes it from a text. -/
theorem listIn_editHouse {ρ : Type} [Resolver ρ] (w : World) (names : ρ) (e : HouseEdit)
    (place : ListPlace) : (editHouse (w, names) e).1.listIn place = w.listIn place
      ∨ (editHouse (w, names) e).1.listIn place = .empty
      ∨ ∃ house list text, e = .list house list text ∧ w.placeOf? house list = some place
        ∧ (editHouse (w, names) e).1.listIn place = (AccessList.ofText text names).1 := by
  unfold listIn
  rcases listAt?_editHouse w names e place with hSame | hCleared | ⟨house, list, text, he, hPlace, hNew⟩
  · exact .inl (by rw [hSame])
  · refine .inr (.inl ?_)
    rw [hCleared]
    cases place <;> rfl
  · exact .inr (.inr ⟨house, list, text, he, hPlace, by rw [hNew, Option.getD_some]⟩)

/-- A list that is empty or written from a text is so after every edit. -/
theorem Written.edit {names : NameSource} {place : ListPlace} (h : w.Written names place)
    (e : HouseEdit) : (editHouse (w, names) e).1.Written names place := by
  have hSame := sameFittings_editHouse w names e
  rcases listIn_editHouse w names e place with hKept | hCleared | ⟨house, list, text, _, hPlace, hNew⟩
  · rcases h with hEmpty | ⟨house, list, text, hPlace, hList⟩
    · exact .inl (hKept.trans hEmpty)
    · exact .inr ⟨house, list, text, (hSame.placeOf?_eq house list).trans hPlace, hKept.trans hList⟩
  · exact .inl hCleared
  · exact .inr ⟨house, list, text, (hSame.placeOf?_eq house list).trans hPlace, hNew⟩

/-- **However a house is edited, a list is where its number leads.** -/
theorem Written.of_edits {names : NameSource} {place : ListPlace} (edits : List HouseEdit)
    (h : w.Written names place) : (w.editHouses names edits).1.Written names place := by
  induction edits generalizing w with
  | nil => exact h
  | cons e edits ih =>
    rw [editHouses_cons]
    exact ih (h.edit e)

/-- Where nobody is let in, nobody is once houses have other owners. -/
theorem listIn_restoreHouses (rows : List HouseRow) {place : ListPlace}
    (h : w.listIn place = .empty) : (w.restoreHouses rows).listIn place = .empty := by
  induction rows generalizing w with
  | nil => exact h
  | cons row rows ih =>
    refine ih (w := w.restoreHouse row) ?_
    unfold listIn at h ⊢
    rcases listAt?_restoreHouse w row place with hKept | hCleared
    · rw [hKept, h]
    · rw [hCleared]
      cases place <;> rfl

/-- In the world of a blueprint nobody is let in anywhere. -/
theorem Fitted.listIn_eq (h : Fitted w) (place : ListPlace) : w.listIn place = .empty := by
  -- A place without a house or an item has no list, which reads as an empty one.
  cases place with
  | guests id =>
    cases hHouse : w.house? id with
    | none => simp [listIn, listAt?, hHouse]
    | some house =>
      rw [listIn_guests hHouse]
      exact (congrArg House.guests (h.vacant id house hHouse)).symm
  | subowners id =>
    cases hHouse : w.house? id with
    | none => simp [listIn, listAt?, hHouse]
    | some house =>
      rw [listIn_subowners hHouse]
      exact (congrArg House.subowners (h.vacant id house hHouse)).symm
  | door id =>
    show ((w.graph.item? id).bind _).getD _ = _
    cases hItem : w.graph.item? id with
    | none => rfl
    | some i =>
      rw [Option.bind_some, h.unlisted id i hItem]
      rfl

/-! ## §4. Rows of lists. -/

/-- The rows of lists are the lists that the houses of the register have. -/
theorem mem_listRows {row : ListRow} : row ∈ w.listRows ↔ ∃ id h, w.house? id = some h
    ∧ row.house = h.id ∧ (row.list, row.text) ∈ h.lists w.graph := by
  unfold listRows
  rw [List.mem_flatMap]
  constructor
  · rintro ⟨h, hMem, hRow⟩
    obtain ⟨id, hHouse⟩ := mem_houses_values hMem
    obtain ⟨⟨list, text⟩, hList, rfl⟩ := List.mem_map.1 hRow
    exact ⟨id, h, hHouse, rfl, hList⟩
  · rintro ⟨id, h, hHouse, hId, hList⟩
    exact ⟨h, mem_values_iff.2 ⟨id, hHouse⟩, List.mem_map.2 ⟨_, hList, by rw [← hId]⟩⟩

/-- A place whose list has a text has a row. -/
theorem mem_listRows_of_placeOf? (hw : w.Numbered) {house list : UInt32} {place : ListPlace}
    (hPlace : w.placeOf? house list = some place) (hText : (w.listIn place).text ≠ "") :
    { house, list, text := (w.listIn place).text : ListRow } ∈ w.listRows := by
  have hNonempty : ((w.listIn place).text != "") = true := bne_iff_ne.2 hText
  unfold placeOf? at hPlace
  obtain ⟨h, hHouse, hPlaceOf⟩ := Option.bind_eq_some_iff.1 hPlace
  refine mem_listRows.2 ⟨house, h, hHouse, (hw house h hHouse).symm, ?_⟩
  rw [House.lists_eq, List.mem_filter]
  refine ⟨?_, hNonempty⟩
  -- The number is that of the guests, of the subowners, or of a door that is found by it.
  split_ifs at hPlaceOf with hGuests hSubowners
  · obtain rfl := Option.some_inj.1 hPlaceOf
    rw [hGuests, listIn_guests hHouse]
    exact List.mem_cons_self
  · obtain rfl := Option.some_inj.1 hPlaceOf
    rw [hSubowners, listIn_subowners hHouse]
    exact List.mem_cons_of_mem _ List.mem_cons_self
  · obtain ⟨door, hFilter, rfl⟩ := Option.map_eq_some_iff.1 hPlaceOf
    have hFound : h.doors.find? (fun d => (House.doorNumber w.graph d).toUInt32 == list)
        = some door := (Option.filter_eq_some_iff.1 hFilter).1
    have hSame := List.find?_some hFound
    have hNumber : (House.doorNumber w.graph door).toUInt32 = list := eq_of_beq hSame
    refine List.mem_cons_of_mem _ (List.mem_cons_of_mem _ (List.mem_map.2 ⟨door, ?_, ?_⟩))
    · exact List.mem_of_find?_eq_some hFound
    · rw [← hNumber]
      rfl

/-- The number of a door is not the one of guests or of sub-owners. -/
theorem doorNumber_ne (n : UInt8) : n.toUInt32 ≠ guestList ∧ n.toUInt32 ≠ subownerList := by
  -- A number of a door is less than 256, and the two are 256 and 257.
  have hSmall := n.toNat_lt
  constructor
  · intro h
    have hNat : n.toUInt32.toNat = guestList.toNat := congrArg UInt32.toNat h
    rw [UInt8.toNat_toUInt32] at hNat
    have hValue : guestList.toNat = 256 := rfl
    omega
  · intro h
    have hNat : n.toUInt32.toNat = subownerList.toNat := congrArg UInt32.toNat h
    rw [UInt8.toNat_toUInt32] at hNat
    have hValue : subownerList.toNat = 257 := rfl
    omega

/-- A row has the text of the list at its place. -/
theorem placeOf?_of_mem_listRows (hFitted : Fitted w₀) (hSame : SameFittings w₀ w)
    (hw : w.Numbered) {names : NameSource} (hWritten : ∀ place, w.Written names place)
    {row : ListRow} (hRow : row ∈ w.listRows) :
    ∃ place, w.placeOf? row.house row.list = some place
      ∧ (w.listIn place).text = row.text ∧ row.text ≠ "" := by
  obtain ⟨id, h, hHouse, hId, hList⟩ := mem_listRows.1 hRow
  rw [hw id h hHouse] at hId
  rw [House.lists_eq, List.mem_filter] at hList
  obtain ⟨hMem, hNonempty⟩ := hList
  have hText : row.text ≠ "" := bne_iff_ne.1 hNonempty
  rcases List.mem_cons.1 hMem with hGuests | hMem'
  · obtain ⟨hNumber, hHere⟩ := Prod.mk.inj hGuests
    refine ⟨.guests id, ?_, ?_, hText⟩
    · unfold placeOf?
      rw [hId, hHouse, hNumber]
      rfl
    · rw [listIn_guests hHouse, hHere]
  rcases List.mem_cons.1 hMem' with hSubowners | hDoors
  · obtain ⟨hNumber, hHere⟩ := Prod.mk.inj hSubowners
    refine ⟨.subowners id, ?_, ?_, hText⟩
    · unfold placeOf?
      rw [hId, hHouse, hNumber]
      rfl
    · rw [listIn_subowners hHouse, hHere]
  -- A list was written where its number led to, so this door is the first one with its number.
  obtain ⟨door, hDoor, hPair⟩ := List.mem_map.1 hDoors
  obtain ⟨hNumber, hHere⟩ := Prod.mk.inj hPair
  have hIn : (w.listIn (.door door)).text = row.text := hHere
  refine ⟨.door door, ?_, hIn, hText⟩
  rcases hWritten (.door door) with hEmpty | ⟨house, list, text, hPlace, _⟩
  · rw [hEmpty] at hIn
    exact absurd hIn.symm hText
  · obtain ⟨h', hHouse', hDoor', hList, _⟩ := placeOf?_eq_door hPlace
    obtain ⟨old, hOld, hVacant⟩ := hSame.house?_eq_some hHouse
    obtain ⟨old', hOld', hVacant'⟩ := hSame.house?_eq_some hHouse'
    have hDoors : h.doors = old.doors := House.doors_eq_of_vacant hVacant
    have hDoors' : h'.doors = old'.doors := House.doors_eq_of_vacant hVacant'
    -- Houses have no door in common, so the list was written under this house.
    have hHouses := hFitted.apart id house old old' hOld hOld' door (hDoors ▸ hDoor)
      (hDoors' ▸ hDoor')
    rw [hId, ← hNumber, hHouses, ← hList]
    exact hPlace

/-- **The rows of all lists bring back every list.** -/
theorem listIn_restored (hFitted : Fitted w₀) (hSame : SameFittings w₀ w) (hw : w.Numbered)
    {names : NameSource} (hWritten : ∀ place, w.Written names place)
    (hRestored : SameFittings w₀ w') (hNobody : ∀ place, w'.listIn place = .empty)
    (place : ListPlace) :
    (w'.restoreLists names w.listRows).1.listIn place = w.listIn place := by
  have hPlaces : ∀ house list, w'.placeOf? house list = w.placeOf? house list :=
    fun house list => (hRestored.placeOf?_eq house list).trans (hSame.placeOf?_eq house list).symm
  have hLast := listAt?_restoreLists (P := (· = names))
    (fun _ text h => h ▸ AccessList.names_ofText text names) w.listRows w' names rfl place
  cases hRow : w'.lastRow? w.listRows place with
  | some row =>
    rw [hRow] at hLast
    obtain ⟨_, rfl, hNow⟩ := hLast
    -- The row was written for this place, and is about the list that is there.
    have hPlace : w.placeOf? row.house row.list = some place := by
      have hFound := List.find?_some hRow
      rw [← hPlaces]
      exact of_decide_eq_true hFound
    have hMem : row ∈ w.listRows := List.mem_reverse.1 (List.mem_of_find?_eq_some hRow)
    obtain ⟨place', hPlace', hText, hNonempty⟩ :=
      placeOf?_of_mem_listRows hFitted hSame hw hWritten hMem
    obtain rfl := Option.some_inj.1 (hPlace'.symm.trans hPlace)
    have hHere : (w'.restoreLists _ w.listRows).1.listIn place' = _ :=
      congrArg (·.getD .empty) hNow
    rw [hHere, Option.getD_some]
    rcases hWritten place' with hEmpty | ⟨_, _, text, _, hList⟩
    · rw [hEmpty] at hText
      exact absurd hText.symm hNonempty
    · rw [hList, AccessList.text_ofText] at hText
      rw [hList, hText]
  | none =>
    rw [hRow] at hLast
    have hHere : (w'.restoreLists names w.listRows).1.listIn place = w'.listIn place :=
      congrArg (·.getD .empty) hLast
    rw [hHere, hNobody]
    rcases hWritten place with hEmpty | ⟨house, list, text, hPlace, hList⟩
    · exact hEmpty.symm
    · -- A list with a text would have a row.
      by_cases hText : text = ""
      · rw [hList, hText, AccessList.ofText_blank]
      · have hNonempty : (w.listIn place).text ≠ "" := by
          rw [hList, AccessList.text_ofText]
          exact hText
        have hMem := mem_listRows_of_placeOf? hw hPlace hNonempty
        refine absurd (decide_eq_true ?_)
          (List.find?_eq_none.1 hRow _ (List.mem_reverse.2 hMem))
        exact (hPlaces house list).trans hPlace

/-- **The rows of a world bring back its houses**: the last row of each house, and the rows of all
lists. -/
theorem sameTenants_restored (hFitted : Fitted w₀) (hSame : SameFittings w₀ w) (hw : w.Numbered)
    {names : NameSource} (hWritten : ∀ place, w.Written names place) {rows : List HouseRow}
    {id : UInt32} {h : House} (hHouse : w.house? id = some h)
    (hRow : rows.reverse.find? (·.id = id) = some (houseRow h)) :
    ∃ h', ((w₀.restoreHouses rows).restoreLists names w.listRows).1.house? id = some h'
      ∧ h.SameTenants w.graph h'
        ((w₀.restoreHouses rows).restoreLists names w.listRows).1.graph := by
  -- Rows of houses and rows of lists leave the fittings, so both worlds have the same ones.
  have hRestored : SameFittings w₀ (w₀.restoreHouses rows) := by
    have hEdits := sameFittings_editHouses (rows.map .row) w₀ names
    rwa [editHouses_rows] at hEdits
  have hAll : SameFittings w₀ ((w₀.restoreHouses rows).restoreLists names w.listRows).1 := by
    rw [← editHouses_lists]
    exact hRestored.trans (sameFittings_editHouses _ _ names)
  refine (hSame.symm.trans hAll).sameTenants hHouse ?_ ?_
  · obtain ⟨old, hOld, _⟩ := hSame.house?_eq_some hHouse
    rw [tenancy?_restoreLists, tenancy?_restoreHouses, hRow]
    unfold tenancy?
    rw [hOld]
    rfl
  · exact listIn_restored hFitted hSame hw hWritten hRestored
      fun place => listIn_restoreHouses rows (hFitted.listIn_eq place)

end World

end Homestead
