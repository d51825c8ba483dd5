/-
  Homestead.Proofs.House.Lists
  ────────────────────────────
  **WHERE LISTS ARE KEPT, AND WHICH ONE COUNTS.**

  A house keeps a list of guests and one of sub-owners, and each of its
  doors can have one.  A list is addressed by a number; the number of a
  door leads to the first door that has it.  When lists are replaced one
  after another, the last one for a place is the one that is there.

  Main results:
    * `ListPlace`, `placeOf?`, `listAt?` — places of lists;
    * `listAt?_editHouse` — what an edit does to the list at a place;
    * `listAt?_restoreLists` — of many rows the last one counts.
-/
import Homestead.Proofs.House.Edits

namespace Homestead

/-! ## §1. The list of a text. -/

namespace AccessList

variable {ρ : Type} [Resolver ρ]

/-- An entry is no part of the text that a list is read from. -/
theorem text_addEntry (state : AccessList × ρ) (e : AccessEntry) :
    (addEntry state e).1.text = state.1.text := by
  obtain ⟨l, names⟩ := state
  cases e with
  | guild name =>
    show (l.addGuild name names).2.1.text = _
    unfold addGuild
    split <;> rfl
  | player name =>
    show (l.addPlayer name names).2.1.text = _
    unfold addPlayer
    split <;> rfl
  | expression text =>
    -- A pattern is refused, or known already, or put in: the text stays each time.
    show (l.addExpression text).2.text = _
    unfold addExpression
    dsimp only
    split_ifs
    · rfl
    · split <;> rfl

/-- **The list of a text has that text.** -/
theorem text_ofText (text : String) (names : ρ) : (ofText text names).1.text = text := by
  have hEntries : ∀ (es : List AccessEntry) (state : AccessList × ρ),
      (es.foldl addEntry state).1.text = state.1.text := by
    intro es
    induction es with
    | nil => exact fun state => rfl
    | cons e es ih => exact fun state => (ih (addEntry state e)).trans (text_addEntry state e)
  exact hEntries (AccessEntry.ofText text) ({ text }, names)

/-- Names are looked up in a fixed source without changing it. -/
theorem names_ofText (text : String) (names : NameSource) : (ofText text names).2 = names := by
  have hStep : ∀ (e : AccessEntry) (l : AccessList), (addEntry (l, names) e).2 = names := by
    intro e l
    cases e with
    | guild name =>
      show (l.addGuild name names).2.2 = names
      -- A fixed source gives itself back.
      have hFixed : (Resolver.resolve names .guild name).2 = names := rfl
      unfold addGuild
      split
      next heq => rw [heq] at hFixed; exact hFixed
      next heq => rw [heq] at hFixed; exact hFixed
    | player name =>
      show (l.addPlayer name names).2.2 = names
      have hFixed : (Resolver.resolve names .player name).2 = names := rfl
      unfold addPlayer
      split
      next heq => rw [heq] at hFixed; exact hFixed
      next heq => rw [heq] at hFixed; exact hFixed
    | expression text => rfl
  have hEntries : ∀ (es : List AccessEntry) (l : AccessList),
      (es.foldl addEntry (l, names)).2 = names := by
    intro es
    induction es with
    | nil => exact fun l => rfl
    | cons e es ih =>
      intro l
      have hPair : addEntry (l, names) e = ((addEntry (l, names) e).1, names) :=
        Prod.ext rfl (hStep e l)
      rw [List.foldl_cons, hPair]
      exact ih _
  exact hEntries (AccessEntry.ofText text) { text }

end AccessList

/-! ## §2. Places. -/

/-- A place where a list can be kept. -/
inductive ListPlace where
  /-- Among the guests of a house. -/
  | guests (house : UInt32)
  /-- Among the sub-owners of a house. -/
  | subowners (house : UInt32)
  /-- By a door. -/
  | door (id : ItemId)
  deriving DecidableEq

/-- What is at a place where nobody is let in: doors have no list at all then. -/
def ListPlace.cleared : ListPlace → Option AccessList
  | .door _ => none
  | _ => some .empty

namespace World

/-- The place of the list with a number. -/
def placeOf? (w : World) (house list : UInt32) : Option ListPlace :=
  (w.house? house).bind fun h =>
    if list = guestList then some (.guests house)
    else if list = subownerList then some (.subowners house)
    else ((h.doorByNumber w.graph list).filter fun door =>
      ((w.graph.item? door).map (·.isDoor)).getD false).map .door

/-- The list that is kept at a place. -/
def listAt? (w : World) : ListPlace → Option AccessList
  | .guests house => (w.house? house).map (·.guests)
  | .subowners house => (w.house? house).map (·.subowners)
  | .door id => House.doorList? w.graph id

variable {w w' : World}

/-- Where a list is kept depends on nothing that edits change. -/
theorem SameFittings.placeOf?_eq (h : SameFittings w w') (house list : UInt32) :
    w'.placeOf? house list = w.placeOf? house list := by
  have hHouses := h.houses house
  unfold placeOf?
  cases hHouse' : w'.house? house with
  | none =>
    rw [hHouse', Option.map_none] at hHouses
    rw [Option.map_eq_none_iff.1 hHouses.symm]
    rfl
  | some house' =>
    obtain ⟨old, hOld, hVacant⟩ := h.house?_eq_some hHouse'
    have hDoors : house'.vacant.doors = old.vacant.doors := congrArg House.doors hVacant
    -- Doors are found by numbers, which edits do not write.
    have hNumber : house'.doorByNumber w'.graph list = old.doorByNumber w.graph list := by
      rw [h.items.doorByNumber_eq]
      unfold House.doorByNumber
      rw [show house'.doors = old.doors from hDoors]
    rw [hOld, Option.bind_some, Option.bind_some, hNumber]
    simp only [h.items.isDoor_eq]

/-- A door that has a place is the first door of its house with its number. -/
theorem placeOf?_eq_door {house list : UInt32} {door : ItemId}
    (h : w.placeOf? house list = some (.door door)) :
    ∃ owner, w.house? house = some owner ∧ door ∈ owner.doors
      ∧ list = (House.doorNumber w.graph door).toUInt32
      ∧ owner.doorByNumber w.graph list = some door := by
  unfold placeOf? at h
  obtain ⟨owner, hOwner, h⟩ := Option.bind_eq_some_iff.1 h
  split_ifs at h with hGuests hSubowners
  · cases h
  · cases h
  · obtain ⟨door', hFilter, hDoor⟩ := Option.map_eq_some_iff.1 h
    obtain rfl := ListPlace.door.inj hDoor
    obtain ⟨hFirst, _⟩ := Option.filter_eq_some_iff.1 hFilter
    have hFound : owner.doors.find? (fun d => (House.doorNumber w.graph d).toUInt32 == list)
        = some door' := hFirst
    -- The first door that is found has the number that was asked for.
    have hNumber := List.find?_some hFound
    exact ⟨owner, hOwner, List.mem_of_find?_eq_some hFound, (eq_of_beq hNumber).symm, hFirst⟩

/-! ## §3. What an edit does to a list. -/

/-- The list of a door, once another list is given to one. -/
theorem doorList?_updateVariant (g : Graph) (door j : ItemId) (list : Option AccessList) :
    House.doorList? (House.updateVariant g door fun v => v.setList list) j
      = if j = door then (g.item? j).bind fun i => (i.variant.setList list).list?
        else House.doorList? g j := by
  show ((g.update door _).item? j).bind _ = _
  rw [Graph.item?_update]
  split_ifs
  · rw [Option.bind_map]
    rfl
  · rfl

/-- Dropping the lists of some doors leaves those of the others. -/
theorem doorList?_dropDoorLists (doors : List ItemId) (g : Graph) (j : ItemId) :
    House.doorList? (doors.foldl House.dropDoorList g) j
      = if j ∈ doors then none else House.doorList? g j := by
  have hNone : ∀ (g : Graph) (door : ItemId), House.doorList? (House.dropDoorList g door) j
      = if j = door then none else House.doorList? g j := by
    intro g door
    show House.doorList? (House.updateVariant g door _) j = _
    rw [doorList?_updateVariant]
    split_ifs
    · cases g.item? j with
      | none => rfl
      | some i =>
        show (i.variant.setList none).list? = none
        cases i.variant <;> rfl
    · rfl
  -- A list that was dropped is not there to be dropped again.
  induction doors generalizing g with
  | nil => rw [List.foldl_nil, if_neg List.not_mem_nil]
  | cons door doors ih =>
    rw [List.foldl_cons, ih, hNone]
    by_cases hMem : j ∈ doors
    · rw [if_pos hMem, if_pos (List.mem_cons_of_mem door hMem)]
    · rw [if_neg hMem]
      by_cases hj : j = door
      · rw [if_pos hj, if_pos (hj ▸ List.mem_cons_self)]
      · rw [if_neg hj, if_neg (by rw [List.mem_cons]; exact fun h => h.elim hj hMem)]

variable {ρ : Type} [Resolver ρ]

/-- A number leads to the guests, to the sub-owners, to nothing or to a door, and the list that it
leads to is replaced. -/
inductive SetList (h : House) (g : Graph) (list : UInt32) (access : AccessList) :
    House → Graph → Prop where
  /-- The guests are replaced. -/
  | guests (hList : list = guestList) : SetList h g list access { h with guests := access } g
  /-- The sub-owners are replaced. -/
  | subowners (hList : list = subownerList) :
    SetList h g list access { h with subowners := access } g
  /-- No door has the number. -/
  | none (hGuests : list ≠ guestList) (hSubowners : list ≠ subownerList)
    (hDoor : (h.doorByNumber g list).filter (fun door =>
      ((g.item? door).map (·.isDoor)).getD false) = none) : SetList h g list access h g
  /-- The list of a door is replaced. -/
  | door (hGuests : list ≠ guestList) (hSubowners : list ≠ subownerList) (door : ItemId)
    (hDoor : (h.doorByNumber g list).filter (fun door =>
      ((g.item? door).map (·.isDoor)).getD false) = some door) :
    SetList h g list access h (House.updateVariant g door fun v => v.setList (some access))

/-- A list that is set is that of the guests, that of the subowners, that of a door, or no list of
the house. -/
theorem setList_cases (h : House) (g : Graph) (list : UInt32) (text : String) (names : ρ) :
    SetList h g list (AccessList.ofText text names).1 (h.setList g list text names).1
      (h.setList g list text names).2.1 := by
  unfold House.setList
  split_ifs with hGuests hSubowners
  · exact .guests hGuests
  · exact .subowners hSubowners
  · -- What is neither the guests nor the subowners is a number of a door, of which the first
    -- counts.
    cases hFirst : h.doorByNumber g list with
    | none => exact .none hGuests hSubowners (by rw [hFirst]; rfl)
    | some door =>
      dsimp only
      split_ifs with hDoor
      · -- The first item under the number is a door, and takes the list.
        exact .door hGuests hSubowners door (by rw [hFirst, Option.filter_some, if_pos hDoor])
      · exact .none hGuests hSubowners (by rw [hFirst, Option.filter_some, if_neg hDoor])

/-- A list that is set stands in its own place and in no other. -/
theorem listAt?_of_setList {house list : UInt32} {h h' : House} {g' : Graph}
    {access : AccessList} (hHouse : w.house? house = some h)
    (hSet : SetList h w.graph list access h' g')
    (hHouses : ∀ id, w'.house? id = if id = house then some h' else w.house? id)
    (hGraph : w'.graph = g') (place : ListPlace) :
    w'.listAt? place
      = if w.placeOf? house list = some place then some access else w.listAt? place := by
  -- Where the list goes, as the order of the questions has it.
  have hPlace : w.placeOf? house list = (if list = guestList then some (.guests house)
      else if list = subownerList then some (.subowners house)
      else ((h.doorByNumber w.graph list).filter fun door =>
        ((w.graph.item? door).map (·.isDoor)).getD false).map .door) := by
    unfold placeOf?
    rw [hHouse, Option.bind_some]
  rw [hPlace]
  cases hSet with
  | guests hList =>
    rw [if_pos hList]
    cases place with
    | guests id =>
      by_cases hid : id = house
      · simp [listAt?, hHouses, hid]
      · simp [listAt?, hHouses, hid, Ne.symm hid]
    | subowners id => by_cases hid : id = house <;> simp [listAt?, hHouses, hid, hHouse]
    | door id => simp [listAt?, hGraph]
  | subowners hList =>
    -- The two numbers differ, so the question about guests was answered with no.
    have hGuests : list ≠ guestList := by
      rw [hList]
      decide
    rw [if_neg hGuests, if_pos hList]
    cases place with
    | guests id => by_cases hid : id = house <;> simp [listAt?, hHouses, hid, hHouse]
    | subowners id =>
      by_cases hid : id = house
      · simp [listAt?, hHouses, hid]
      · simp [listAt?, hHouses, hid, Ne.symm hid]
    | door id => simp [listAt?, hGraph]
  | none hGuests hSubowners hDoor =>
    rw [if_neg hGuests, if_neg hSubowners, hDoor]
    cases place with
    | guests id => by_cases hid : id = house <;> simp [listAt?, hHouses, hid, hHouse]
    | subowners id => by_cases hid : id = house <;> simp [listAt?, hHouses, hid, hHouse]
    | door id => simp [listAt?, hGraph]
  | door hGuests hSubowners door hDoor =>
    rw [if_neg hGuests, if_neg hSubowners, hDoor]
    cases place with
    | guests id => by_cases hid : id = house <;> simp [listAt?, hHouses, hid, hHouse]
    | subowners id => by_cases hid : id = house <;> simp [listAt?, hHouses, hid, hHouse]
    | door id =>
      -- The item is a door, so it takes the list.
      have hIsDoor := (Option.filter_eq_some_iff.1 hDoor).2
      simp only [listAt?, hGraph, doorList?_updateVariant, Option.map_some, Option.some_inj,
        ListPlace.door.injEq]
      by_cases hid : id = door
      · rw [if_pos hid, if_pos hid.symm, hid]
        cases hItem : w.graph.item? door with
        | none =>
          rw [hItem] at hIsDoor
          cases hIsDoor
        | some i =>
          rw [hItem] at hIsDoor
          have hVariant : i.variant.isDoor = true := hIsDoor
          show (i.variant.setList _).list? = _
          cases hKind : i.variant with
          | door owner old => rfl
          | _ =>
            rw [hKind] at hVariant
            cases hVariant
      · rw [if_neg hid, if_neg fun hEq => hid hEq.symm]

/-- **Replacing a list** changes the one at its place and no other one. -/
theorem listAt?_list (w : World) (names : ρ) (house list : UInt32) (text : String)
    (place : ListPlace) :
    (editHouse (w, names) (.list house list text)).1.listAt? place
      = if w.placeOf? house list = some place then some (AccessList.ofText text names).1
        else w.listAt? place := by
  cases hHouse : w.house? house with
  | none =>
    rw [editHouse_of_none (by exact hHouse)]
    unfold placeOf?
    rw [hHouse, Option.bind_none, if_neg (by simp)]
  | some h =>
    have hHouses := house?_editHouse w names (.list house list text)
    simp only [HouseEdit.house, HouseEdit.apply, hHouse, Option.map_some] at hHouses
    -- The graph changes only where a door gets the list.
    have hGraph : (editHouse (w, names) (.list house list text)).1.graph
        = (h.setList w.graph list text names).2.1 := by
      rw [editHouse_of_some (by exact hHouse)]
      rfl
    exact listAt?_of_setList hHouse (setList_cases h w.graph list text names) hHouses hGraph place

/-- A new owner finds the lists as they are, or all of them cleared. -/
theorem listAt?_setOwner {house : UInt32} {h h' : House}
    (hHouse : w.house? house = some h)
    (hHouses : ∀ id, w'.house? id = if id = house then some h' else w.house? id) (owner : UInt32)
    (hLists : h'.guests = (h.setOwner w.graph owner).1.guests
      ∧ h'.subowners = (h.setOwner w.graph owner).1.subowners)
    (hGraph : w'.graph = (h.setOwner w.graph owner).2) (place : ListPlace) :
    w'.listAt? place = w.listAt? place ∨ w'.listAt? place = place.cleared := by
  -- Only another owner clears the lists, and then all of them at once.
  have hCases : (h'.guests = h.guests ∧ h'.subowners = h.subowners ∧ w'.graph = w.graph)
      ∨ (h'.guests = .empty ∧ h'.subowners = .empty
        ∧ w'.graph = h.doors.foldl House.dropDoorList w.graph) := by
    rw [hLists.1, hLists.2, hGraph]
    unfold House.setOwner
    split_ifs
    · exact .inl ⟨rfl, rfl, rfl⟩
    · exact .inl ⟨rfl, rfl, rfl⟩
    · exact .inr ⟨rfl, rfl, rfl⟩
  rcases hCases with ⟨hGuests, hSubowners, hSame⟩ | ⟨hGuests, hSubowners, hDropped⟩
  · left
    cases place with
    | guests id => by_cases hid : id = house <;> simp [listAt?, hHouses, hid, hHouse, hGuests]
    | subowners id => by_cases hid : id = house <;> simp [listAt?, hHouses, hid, hHouse, hSubowners]
    | door id => simp [listAt?, hSame]
  · cases place with
    | guests id =>
      by_cases hid : id = house <;> simp [listAt?, hHouses, hid, hGuests, ListPlace.cleared]
    | subowners id =>
      by_cases hid : id = house <;> simp [listAt?, hHouses, hid, hSubowners, ListPlace.cleared]
    | door id =>
      simp only [listAt?, hDropped, doorList?_dropDoorLists, ListPlace.cleared]
      -- The lists of doors are cleared at the doors of the house alone.
      by_cases hMem : id ∈ h.doors
      · exact .inr (if_pos hMem)
      · exact .inl (if_neg hMem)

/-- **An edit leaves the list of a place as it is, clears it, or is the one that writes it.** -/
theorem listAt?_editHouse (w : World) (names : ρ) (e : HouseEdit) (place : ListPlace) :
    (editHouse (w, names) e).1.listAt? place = w.listAt? place
      ∨ (editHouse (w, names) e).1.listAt? place = place.cleared
      ∨ ∃ house list text, e = .list house list text ∧ w.placeOf? house list = some place
        ∧ (editHouse (w, names) e).1.listAt? place = some (AccessList.ofText text names).1 := by
  cases hHouse : w.house? e.house with
  | none =>
    rw [editHouse_of_none hHouse]
    exact .inl rfl
  | some h =>
    have hHouses := house?_editHouse w names e
    rw [hHouse, Option.map_some] at hHouses
    have hGraph : (editHouse (w, names) e).1.graph = (e.apply h w.graph names).2.1 := by
      rw [editHouse_of_some hHouse]
    cases e with
    | list house list text =>
      rw [listAt?_list]
      split_ifs with hPlace
      · exact .inr (.inr ⟨house, list, text, rfl, hPlace, rfl⟩)
      · exact .inl rfl
    | owner house owner =>
      exact (listAt?_setOwner hHouse hHouses _ ⟨rfl, rfl⟩ hGraph place).imp_right .inl
    | row stored =>
      exact (listAt?_setOwner hHouse hHouses _ ⟨rfl, rfl⟩ hGraph place).imp_right .inl
    -- Rents and warnings leave the lists as the owner of before would.
    | paid house time =>
      refine (listAt?_setOwner hHouse hHouses h.owner ?_ ?_ place).imp_right .inl
      · rw [h.setOwner_self]
        exact ⟨rfl, rfl⟩
      · rw [hGraph, h.setOwner_self]
        rfl
    | warnings house number =>
      refine (listAt?_setOwner hHouse hHouses h.owner ?_ ?_ place).imp_right .inl
      · rw [h.setOwner_self]
        exact ⟨rfl, rfl⟩
      · rw [hGraph, h.setOwner_self]
        rfl

/-- A row of a house leaves a list as it is or clears it. -/
theorem listAt?_restoreHouse (w : World) (row : HouseRow) (place : ListPlace) :
    (w.restoreHouse row).listAt? place = w.listAt? place
      ∨ (w.restoreHouse row).listAt? place = place.cleared := by
  -- No name is looked up for such a row, so any source of names will do.
  rcases listAt?_editHouse w ({ find? := fun _ _ => none } : NameSource) (.row row) place with
    hKept | hCleared | ⟨_, _, _, hEdit, _⟩
  · exact .inl hKept
  · exact .inr hCleared
  · cases hEdit

/-! ## §4. Many lists. -/

/-- The names keep every property that reading lists keeps. -/
theorem names_editHouse {P : ρ → Prop}
    (hP : ∀ names text, P names → P (AccessList.ofText text names).2) {names : ρ}
    (hNames : P names) (w : World) (e : HouseEdit) : P (editHouse (w, names) e).2 := by
  -- Names are asked for only where a text is read.
  have hList : ∀ (h : House) (list : UInt32) (text : String),
      P (h.setList w.graph list text names).2.2 := by
    intro h list text
    unfold House.setList
    split_ifs
    · exact hP names text hNames
    · exact hP names text hNames
    · cases h.doorByNumber w.graph list with
      | none => exact hNames
      | some door =>
        dsimp only
        split_ifs
        · exact hP names text hNames
        · exact hNames
  cases hHouse : w.house? e.house with
  | none =>
    rw [editHouse_of_none hHouse]
    exact hNames
  | some h =>
    rw [editHouse_of_some hHouse]
    cases e with
    | list house list text => exact hList h list text
    | owner house owner => exact hNames
    | paid house time => exact hNames
    | warnings house number => exact hNames
    | row stored => exact hNames

/-- A fixed source of names stays as it is. -/
theorem names_editHouse_eq (names : NameSource) (w : World) (e : HouseEdit) :
    (editHouse (w, names) e).2 = names :=
  names_editHouse (P := (· = names)) (fun _ text h => h ▸ AccessList.names_ofText text names) rfl w e

/-- The first edit is made first, and leaves the source of names. -/
theorem editHouses_cons (e : HouseEdit) (edits : List HouseEdit) (names : NameSource) (w : World) :
    w.editHouses names (e :: edits) = (editHouse (w, names) e).1.editHouses names edits := by
  have hPair : editHouse (w, names) e = ((editHouse (w, names) e).1, names) :=
    Prod.ext rfl (names_editHouse_eq names w e)
  unfold editHouses
  rw [List.foldl_cons, hPair]

/-- Edits leave the source of names. -/
theorem names_editHouses_eq (edits : List HouseEdit) (names : NameSource) (w : World) :
    (w.editHouses names edits).2 = names := by
  induction edits generalizing w with
  | nil => rfl
  | cons e edits ih =>
    rw [editHouses_cons]
    exact ih (editHouse (w, names) e).1

/-- The last row for a place. -/
def lastRow? (w : World) (rows : List ListRow) (place : ListPlace) : Option ListRow :=
  rows.reverse.find? fun row => w.placeOf? row.house row.list = some place

/-- The last row for a place is a later one, or the first one. -/
theorem lastRow?_cons (w : World) (row : ListRow) (rows : List ListRow) (place : ListPlace) :
    w.lastRow? (row :: rows) place = (w.lastRow? rows place).or
      (if w.placeOf? row.house row.list = some place then some row else none) := by
  unfold lastRow?
  rw [List.reverse_cons, List.find?_append, List.find?_singleton]
  by_cases h : w.placeOf? row.house row.list = some place <;> simp [h]

/-- The last row for a place is the same in worlds with the same fittings. -/
theorem SameFittings.lastRow?_eq (h : SameFittings w w') (rows : List ListRow)
    (place : ListPlace) : w'.lastRow? rows place = w.lastRow? rows place := by
  unfold lastRow?
  simp only [h.placeOf?_eq]

/-- **Of many rows for a place the last one counts**; without any, the list stays as it is.  The
names that the row is read with have every property that reading lists keeps. -/
theorem listAt?_restoreLists {P : ρ → Prop}
    (hP : ∀ names text, P names → P (AccessList.ofText text names).2) (rows : List ListRow)
    (w : World) (names : ρ) (hNames : P names) (place : ListPlace) :
    match w.lastRow? rows place with
    | some row => ∃ names', P names' ∧ (w.restoreLists names rows).1.listAt? place
        = some (AccessList.ofText row.text names').1
    | none => (w.restoreLists names rows).1.listAt? place = w.listAt? place := by
  induction rows generalizing w names with
  | nil => rfl
  | cons row rows ih =>
    -- The first row changes neither where lists are kept nor, so, which rows are for the place.
    have hSame := sameFittings_editHouse w names row.edit
    have hHere := listAt?_list w names row.house row.list row.text place
    have hNames' := names_editHouse hP hNames w row.edit
    have hRest := ih (editHouse (w, names) row.edit).1 _ hNames'
    rw [hSame.lastRow?_eq] at hRest
    rw [lastRow?_cons]
    have hAgain : w.restoreLists names (row :: rows)
        = (editHouse (w, names) row.edit).1.restoreLists (editHouse (w, names) row.edit).2 rows := rfl
    rw [hAgain]
    cases hLast : w.lastRow? rows place with
    | some last =>
      rw [hLast] at hRest
      exact hRest
    | none =>
      -- No later row is for the place, so what the first one does to it stays.
      rw [hLast] at hRest
      dsimp only at hRest
      rw [Option.none_or, hRest]
      by_cases hPlace : w.placeOf? row.house row.list = some place
      · rw [if_pos hPlace] at hHere ⊢
        exact ⟨names, hNames, hHere⟩
      · rw [if_neg hPlace] at hHere ⊢
        exact hHere

end World

end Homestead
