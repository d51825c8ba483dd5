/-
  Homestead.Proofs.House.Handover
  ───────────────────────────────
  **A NEW OWNER INHERITS NO GUESTS.**

  Lists are kept in three kinds of places: guests and sub-owners by the
  house, and one more by every door.  When the house passes from one owner
  to another, all of them go.  So what anybody wrote before has no effect
  from then on: the house and its doors are as they would be if nobody had
  ever written it.

  Two runs are compared, one with all lists and one without those that are
  written before the house passes on.  Until it does, the two houses differ
  in lists (`SameBones`), and only in those of doors that are registered;
  from then on they do not differ (`Alike`).

  Main results:
    * `alike_setOwner` — passing on takes every difference away;
    * `alike_run_withoutFormerLists` — the two runs;
    * `lists_end_with_owner` — who may enter, and through which doors.
-/
import Homestead.Proofs.House.Tenancy

namespace Homestead

/-! ## §1. What can be done to a house. -/

/-- Something that is done to a house. -/
inductive HouseAct where
  /-- It is given to a player. -/
  | owner (player : UInt32)
  /-- A list is written. -/
  | list (number : UInt32) (text : String)
  /-- A door is registered. -/
  | door (id : ItemId)
  deriving DecidableEq

namespace HouseAct

/-- Does one thing to a house. -/
def act (names : NameSource) (s : House × Graph) : HouseAct → House × Graph
  | .owner player => s.1.setOwner s.2 player
  | .list number text =>
    let (h, g, _) := s.1.setList s.2 number text names
    (h, g)
  | .door id => s.1.addDoor s.2 id

/-- Does one thing after another. -/
def run (names : NameSource) (s : House × Graph) (acts : List HouseAct) : House × Graph :=
  acts.foldl (act names) s

/-- Whether a house that `owner` has passes from somebody to somebody else on the way. -/
def passesOn (owner : UInt32) : List HouseAct → Bool
  | [] => false
  | .owner player :: acts => (owner != 0 && owner != player) || passesOn player acts
  | .list _ _ :: acts => passesOn owner acts
  | .door _ :: acts => passesOn owner acts

/-- What is done to a house that `owner` has, but for lists that are written before it passes for
the last time from somebody to somebody else. -/
def withoutFormerLists (owner : UInt32) : List HouseAct → List HouseAct
  | [] => []
  | .owner player :: acts => .owner player :: withoutFormerLists player acts
  | .list number text :: acts =>
    if passesOn owner acts then withoutFormerLists owner acts
    else .list number text :: withoutFormerLists owner acts
  | .door id :: acts => .door id :: withoutFormerLists owner acts

end HouseAct

/-! ## §2. Houses that differ in lists. -/

/-- The house without guests and sub-owners. -/
def House.uninvited (h : House) : House :=
  { h with guests := .empty, subowners := .empty }

/-- The houses are the same, and so are the items. -/
structure Alike (s s' : House × Graph) : Prop where
  /-- The houses are the same. -/
  house : s'.1 = s.1
  /-- The items are the same. -/
  items : ∀ j, s'.2.item? j = s.2.item? j

/-- The houses differ in lists at most, those of their doors among them. -/
structure SameBones (s s' : House × Graph) : Prop where
  /-- The houses are the same but for guests and sub-owners. -/
  house : s'.1.uninvited = s.1.uninvited
  /-- The items are the same but for lists. -/
  items : Graph.SameButLists s.2 s'.2
  /-- Doors that are not registered have the same lists. -/
  elsewhere : ∀ j, j ∉ s.1.doors → s'.2.item? j = s.2.item? j

theorem Alike.refl (s : House × Graph) : Alike s s :=
  ⟨rfl, fun _ => rfl⟩

/-- Houses that are alike have the same bones. -/
theorem Alike.sameBones {s s' : House × Graph} (h : Alike s s') : SameBones s s' :=
  ⟨congrArg House.uninvited h.house, fun j => congrArg _ (h.items j), fun j _ => h.items j⟩

namespace SameBones

variable {s s' : House × Graph}

/-- The owner is one of the bones. -/
theorem owner_eq (h : SameBones s s') : s'.1.owner = s.1.owner := by
  have hOwner : s'.1.uninvited.owner = s.1.uninvited.owner := congrArg House.owner h.house
  exact hOwner

/-- The number is one of the bones. -/
theorem id_eq (h : SameBones s s') : s'.1.id = s.1.id := by
  have hId : s'.1.uninvited.id = s.1.uninvited.id := congrArg House.id h.house
  exact hId

/-- The doors are among the bones. -/
theorem doors_eq (h : SameBones s s') : s'.1.doors = s.1.doors := by
  have hDoors : s'.1.uninvited.doors = s.1.uninvited.doors := congrArg House.doors h.house
  exact hDoors

end SameBones

/-- Writing a list changes lists only, and none but those of the house and its doors. -/
theorem World.SetList.uninvited_eq {h h' : House} {g g' : Graph} {list : UInt32}
    {access : AccessList} (hSet : SetList h g list access h' g') :
    h'.uninvited = h.uninvited ∧ ∀ j, j ∉ h.doors → g'.item? j = g.item? j := by
  cases hSet with
  | guests => exact ⟨rfl, fun _ _ => rfl⟩
  | subowners => exact ⟨rfl, fun _ _ => rfl⟩
  | none => exact ⟨rfl, fun _ _ => rfl⟩
  -- A list at a door is written to the item, which is a door of the house.
  | door _ _ door hDoor =>
    have hFirst := (Option.filter_eq_some_iff.1 hDoor).1
    have hRegistered : door ∈ h.doors := List.mem_of_find?_eq_some hFirst
    refine ⟨rfl, ?_⟩
    intro j hj
    refine (Graph.item?_update door j _).trans (if_neg ?_)
    rintro rfl
    exact hj hRegistered

/-- Dropping the lists of doors changes these doors alone. -/
theorem item?_dropDoorLists (doors : List ItemId) (g : Graph) (j : ItemId) :
    (doors.foldl House.dropDoorList g).item? j
      = if j ∈ doors then (g.item? j).map Item.unlisted else g.item? j := by
  have hUnlisted : ∀ i : Item, i.unlisted.unlisted = i.unlisted := by
    intro i
    unfold Item.unlisted
    cases i.variant <;> rfl
  have hOne : ∀ (g : Graph) (door : ItemId), (House.dropDoorList g door).item? j
      = if j = door then (g.item? j).map Item.unlisted else g.item? j :=
    fun g door => Graph.item?_update door j _
  induction doors generalizing g with
  | nil => rw [List.foldl_nil, if_neg List.not_mem_nil]
  | cons door doors ih =>
    rw [List.foldl_cons, ih, hOne]
    by_cases hj : j = door
    · subst hj
      rw [if_pos rfl, if_pos List.mem_cons_self, Option.map_map]
      -- A door that is listed twice loses its list once.
      split_ifs
      · congr 1
        funext i
        exact hUnlisted i
      · rfl
    · simp [hj]

/-- A door that is told its house is told nothing about lists. -/
theorem Fixture.unlisted_told (f : Fixture) (house : UInt32) (i : Item) :
    (f.told house i).unlisted = f.told house i.unlisted := by
  obtain ⟨typeId, count, attributes, variant⟩ := i
  cases f <;> cases variant <;> rfl

/-! ## §3. One thing is done. -/

namespace SameBones

variable {s s' : House × Graph}

/-- **A house that passes on takes no list along.** -/
theorem alike_setOwner (h : SameBones s s') {player : UInt32} (hOwned : s.1.owner ≠ 0)
    (hOther : s.1.owner ≠ player) :
    Alike (s.1.setOwner s.2 player) (s'.1.setOwner s'.2 player) := by
  unfold House.setOwner
  rw [h.owner_eq, if_neg hOther, if_neg hOther, if_neg hOwned, if_neg hOwned]
  constructor
  -- Guests and sub-owners are overwritten, so the houses need to agree on the rest only.
  · show ({ s'.1.uninvited with owner := player, warnings := 0 } : House) = _
    rw [h.house]
    rfl
  · intro j
    show (s'.1.doors.foldl House.dropDoorList s'.2).item? j
      = (s.1.doors.foldl House.dropDoorList s.2).item? j
    rw [item?_dropDoorLists, item?_dropDoorLists, h.doors_eq]
    split_ifs with hDoor
    · exact h.items j
    · exact h.elsewhere j hDoor

/-- A new owner of a house that passes on to nobody else. -/
theorem setOwner (h : SameBones s s') (player : UInt32) :
    SameBones (s.1.setOwner s.2 player) (s'.1.setOwner s'.2 player) := by
  by_cases hOwned : s.1.owner ≠ 0 ∧ s.1.owner ≠ player
  · -- The house had another owner, so both sides drop all lists.
    exact (h.alike_setOwner hOwned.1 hOwned.2).sameBones
  · unfold House.setOwner
    rw [h.owner_eq]
    split_ifs with hSame hNobody
    · exact h
    · refine ⟨?_, h.items, h.elsewhere⟩
      show ({ s'.1.uninvited with owner := player } : House) = _
      rw [h.house]
      rfl
    · -- The case with lists to drop was settled above.
      exact absurd ⟨hNobody, hSame⟩ hOwned

/-- A list that is written to the first of the houses only. -/
theorem setList_left (h : SameBones s s') (names : NameSource) (number : UInt32)
    (text : String) : SameBones ((HouseAct.list number text).act names s) s' := by
  have hBlind := Graph.sameButLists_listBlind.setList s.1 s.2 number text names
  obtain ⟨hHouse, hItems⟩ := (World.setList_cases s.1 s.2 number text names).uninvited_eq
  -- A list is not among the bones, and the doors of the house are.
  have hDoors : (s.1.setList s.2 number text names).1.uninvited.doors = s.1.uninvited.doors :=
    congrArg House.doors hHouse
  constructor
  · exact h.house.trans hHouse.symm
  · exact fun j => (h.items j).trans (hBlind j).symm
  · intro j hj
    have hElsewhere : j ∉ s.1.doors := fun hMem => hj (hDoors.symm ▸ hMem)
    exact (h.elsewhere j hElsewhere).trans (hItems j hElsewhere).symm

/-- A door that is registered with both houses. -/
theorem addDoor (h : SameBones s s') (id : ItemId) :
    SameBones (s.1.addDoor s.2 id) (s'.1.addDoor s'.2 id) := by
  unfold House.addDoor
  rw [h.doors_eq, h.id_eq]
  split_ifs with hKnown
  · exact h
  · constructor
    · show ({ s'.1.uninvited with id := s.1.id, doors := s.1.doors ++ [id] } : House) = _
      rw [h.house]
      rfl
    · intro j
      show ((s'.2.update id (Fixture.door.told s.1.id)).item? j).map Item.unlisted
        = ((s.2.update id (Fixture.door.told s.1.id)).item? j).map Item.unlisted
      -- The house is told to the item apart from its list, so the two can be done in either order.
      have hTold : ∀ o : Option Item, (o.map (Fixture.door.told s.1.id)).map Item.unlisted
          = (o.map Item.unlisted).map (Fixture.door.told s.1.id) := by
        intro o
        cases o with
        | none => rfl
        | some i => exact congrArg some (Fixture.door.unlisted_told s.1.id i)
      rw [Graph.item?_update, Graph.item?_update]
      split_ifs
      · rw [hTold, hTold, h.items j]
      · exact h.items j
    · intro j hj
      -- An item that is no door now was none before.
      have hElsewhere : j ∉ s.1.doors := fun hMem => hj (List.mem_append_left _ hMem)
      show (s'.2.update id _).item? j = (s.2.update id _).item? j
      rw [Graph.item?_update, Graph.item?_update, h.elsewhere j hElsewhere]

end SameBones

namespace Alike

variable {s s' : House × Graph}

/-- **Houses that are the same stay so**, whatever is done to both. -/
theorem act (h : Alike s s') (names : NameSource) (a : HouseAct) :
    Alike (a.act names s) (a.act names s') := by
  obtain ⟨house, g⟩ := s
  obtain ⟨house', g'⟩ := s'
  obtain rfl : house' = house := h.house
  have hItems : ∀ j, g'.item? j = g.item? j := h.items
  have hUpdate : ∀ door f, Alike (house', g.update door f) (house', g'.update door f) := by
    intro door f
    refine ⟨rfl, fun j => ?_⟩
    show (g'.update door f).item? j = (g.update door f).item? j
    rw [Graph.item?_update, Graph.item?_update, hItems]
  -- What an act does depends on the data of items alone, and those are the same.
  cases a with
  | owner player =>
    show Alike (house'.setOwner g player) (house'.setOwner g' player)
    unfold House.setOwner
    split_ifs
    · exact h
    · exact ⟨rfl, hItems⟩
    · refine ⟨rfl, fun j => ?_⟩
      show (house'.doors.foldl House.dropDoorList g').item? j
        = (house'.doors.foldl House.dropDoorList g).item? j
      rw [item?_dropDoorLists, item?_dropDoorLists, hItems]
  | list number text =>
    show Alike ((house'.setList g number text names).1, (house'.setList g number text names).2.1)
      ((house'.setList g' number text names).1, (house'.setList g' number text names).2.1)
    unfold House.setList
    rw [h.sameBones.items.doorByNumber_eq house' number]
    split_ifs
    · exact ⟨rfl, hItems⟩
    · exact ⟨rfl, hItems⟩
    · cases house'.doorByNumber g number with
      | none => exact h
      | some door =>
        dsimp only
        rw [hItems door]
        split_ifs
        · exact ⟨rfl, (hUpdate door fun i =>
            { i with variant := i.variant.setList (some (AccessList.ofText text names).1) }).items⟩
        · exact h
  | door id =>
    show Alike (house'.addDoor g id) (house'.addDoor g' id)
    unfold House.addDoor
    split_ifs
    · exact h
    · exact ⟨rfl, (hUpdate id _).items⟩

/-- Houses that are alike stay so through the same acts. -/
theorem run (h : Alike s s') (names : NameSource) (acts : List HouseAct) :
    Alike (HouseAct.run names s acts) (HouseAct.run names s' acts) := by
  induction acts generalizing s s' with
  | nil => exact h
  | cons a acts ih => exact ih (h.act names a)

/-- The doors of houses that are alike open for the same visitors. -/
theorem canUseDoor_eq (h : Alike s s') (door : ItemId) (visitor : Visitor) :
    s'.1.canUseDoor s'.2 door visitor = s.1.canUseDoor s.2 door visitor := by
  unfold House.canUseDoor House.doorList?
  rw [h.house, h.items]

end Alike

/-! ## §4. One thing after another. -/

namespace HouseAct

/-- A list that is set leaves the owner. -/
theorem owner_list (names : NameSource) (s : House × Graph) (number : UInt32) (text : String) :
    ((HouseAct.list number text).act names s).1.owner = s.1.owner :=
  congrArg (·.1) (World.setList_cases s.1 s.2 number text names).tenancy_eq

/-- A door that is added leaves the owner. -/
theorem owner_addDoor (s : House × Graph) (id : ItemId) :
    (s.1.addDoor s.2 id).1.owner = s.1.owner := by
  unfold House.addDoor
  split_ifs <;> rfl

/-- **Lists that are written before the house passes on have no effect.**  The induction runs over
what is still to be done, so that whether the house will pass on is known when a list is written. -/
theorem alike_run_withoutFormerLists (names : NameSource) (acts : List HouseAct)
    {s s' : House × Graph} (h : SameBones s s')
    (hLast : passesOn s.1.owner acts = false → Alike s s') :
    Alike (run names s acts) (run names s' (withoutFormerLists s.1.owner acts)) := by
  induction acts generalizing s s' with
  | nil => exact hLast rfl
  | cons a acts ih =>
    cases a with
    | owner player =>
      have hOwner := s.1.owner_setOwner s.2 player
      have hAfter : Alike (run names (s.1.setOwner s.2 player) acts)
          (run names (s'.1.setOwner s'.2 player)
            (withoutFormerLists (s.1.setOwner s.2 player).1.owner acts)) := by
        refine ih (h.setOwner player) ?_
        rw [hOwner]
        intro hNot
        -- Either the house passes on now, or it does not pass on any more.
        by_cases hNow : s.1.owner ≠ 0 ∧ s.1.owner ≠ player
        · exact h.alike_setOwner hNow.1 hNow.2
        · refine (hLast ?_).act names (.owner player)
          rw [passesOn, hNot]
          simpa using hNow
      rw [hOwner] at hAfter
      exact hAfter
    | list number text =>
      have hOwner := owner_list names s number text
      rw [withoutFormerLists]
      split_ifs with hLater
      -- The second run leaves this list out, and from here on the houses may differ in it.
      · have hAfter := ih (h.setList_left names number text) (by
          rw [hOwner, hLater]
          exact fun hNot => by cases hNot)
        rw [hOwner] at hAfter
        exact hAfter
      · have hSame := (hLast (Bool.eq_false_iff.2 hLater)).act names (.list number text)
        have hAfter := ih hSame.sameBones fun _ => hSame
        rw [hOwner] at hAfter
        exact hAfter
    | door id =>
      have hAfter := ih (h.addDoor id) (by
        rw [owner_addDoor]
        exact fun hNot => (hLast hNot).act names (.door id))
      rw [owner_addDoor] at hAfter
      exact hAfter

end HouseAct

/-- Right after a house has passed on nobody but its owner may enter, and nobody else may use a
door.  If it has passed to nobody, this holds for every visitor. -/
theorem House.nobody_setOwner (h : House) (g : Graph) {owner : UInt32} (hOwned : h.owner ≠ 0)
    (hOther : owner ≠ h.owner) {visitor : Visitor}
    (hVisitor : owner = 0 ∨ visitor.player ≠ owner) :
    (h.setOwner g owner).1.accessLevel visitor = .notInvited
      ∧ ∀ door ∈ (h.setOwner g owner).1.doors,
        (h.setOwner g owner).1.canUseDoor (h.setOwner g owner).2 door visitor = false := by
  -- A house that passes on loses its lists, those of its doors included.
  have hPasses : h.setOwner g owner
      = ({ h with owner, guests := .empty, subowners := .empty, warnings := 0 },
        h.doors.foldl dropDoorList g) := by
    unfold setOwner
    rw [if_neg (Ne.symm hOther), if_neg hOwned]
  rw [hPasses]
  have hLevel : ({ h with owner, guests := .empty, subowners := .empty, warnings := 0 } :
      House).accessLevel visitor = .notInvited := by
    rcases hVisitor with rfl | hVisitor
    · simp [accessLevel, AccessList.admits_empty]
    · simp [accessLevel, hVisitor, AccessList.admits_empty]
  refine ⟨hLevel, ?_⟩
  intro door hDoor
  have hList : doorList? (h.doors.foldl dropDoorList g) door = none := by
    rw [World.doorList?_dropDoorLists, if_pos hDoor]
  rw [canUseDoor, hLevel, hList]
  rfl

/-- **Lists end with their owner.**  Whatever is done to a new house, it is to every visitor, with
every registered door, what it would be without the lists that were written before it passed for
the last time from somebody to somebody else.  Right after it has passed on nobody but the new
owner, if there is one, may enter or use a registered door.  To give it to the one who has it
changes nothing. -/
theorem lists_end_with_owner (id : UInt32) (g : Graph) (names : NameSource)
    (acts : List HouseAct) :
    let fresh : House × Graph := ({ id }, g)
    let s := HouseAct.run names fresh acts
    let s' := HouseAct.run names fresh (HouseAct.withoutFormerLists 0 acts)
    (s'.1.doors = s.1.doors ∧ ∀ visitor, s'.1.accessLevel visitor = s.1.accessLevel visitor
        ∧ ∀ door ∈ s.1.doors, s'.1.canUseDoor s'.2 door visitor = s.1.canUseDoor s.2 door visitor)
      ∧ (∀ owner, s.1.owner ≠ 0 → owner ≠ s.1.owner → ∀ visitor : Visitor,
        owner = 0 ∨ visitor.player ≠ owner →
          (s.1.setOwner s.2 owner).1.accessLevel visitor = .notInvited
            ∧ ∀ door ∈ (s.1.setOwner s.2 owner).1.doors,
              (s.1.setOwner s.2 owner).1.canUseDoor (s.1.setOwner s.2 owner).2 door visitor
                = false)
      ∧ s.1.setOwner s.2 s.1.owner = s := by
  intro fresh s s'
  -- All visitors see the same in both, so every question has the same answer.
  have hAlike : Alike s s' :=
    HouseAct.alike_run_withoutFormerLists names acts (Alike.refl fresh).sameBones
      fun _ => Alike.refl fresh
  refine ⟨⟨congrArg House.doors hAlike.house, ?_⟩, ?_, ?_⟩
  · intro visitor
    exact ⟨congrArg (·.accessLevel visitor) hAlike.house,
      fun door _ => hAlike.canUseDoor_eq door visitor⟩
  · intro owner hOwned hOther visitor hVisitor
    exact s.1.nobody_setOwner s.2 hOwned hOther hVisitor
  · exact s.1.setOwner_self s.2

/-- A door without a number. -/
def loneDoor : Graph :=
  (Graph.empty.create (.node { typeId := 200, variant := .door none none } [])).2

/-- The house of player 1, who writes Tom on the list of guests and on that of the door. -/
def tomInvited : List HouseAct :=
  [.owner 1, .door 0, .list guestList "Tom", .list 0 "Tom"]

/-- Tom. -/
def visitorTom : Visitor where
  name := "Tom"
  player := 3
  guild := none

/-- Tom may enter and use the door, until the house passes to player 2. -/
theorem lists_end_with_owner_tom :
    let names := NameSource.ofRows [(3, "Tom")] []
    let s := HouseAct.run names ({ id := 5 }, loneDoor) tomInvited
    let t := s.1.setOwner s.2 2
    (s.1.accessLevel visitorTom = .guest ∧ s.1.canUseDoor s.2 0 visitorTom = true)
      ∧ t.1.accessLevel visitorTom = .notInvited ∧ 0 ∈ t.1.doors
      ∧ t.1.canUseDoor t.2 0 visitorTom = false := by
  intro names s t
  have hBefore : s.1.accessLevel visitorTom = .guest
      ∧ s.1.canUseDoor s.2 0 visitorTom = true := by
    decide +kernel
  have hDoor : 0 ∈ t.1.doors := by decide +kernel
  obtain ⟨_, hPassed, _⟩ := lists_end_with_owner 5 loneDoor names tomInvited
  obtain ⟨hLevel, hUse⟩ :=
    hPassed 2 (by decide +kernel) (by decide +kernel) visitorTom (.inr (by decide))
  exact ⟨hBefore, hLevel, hDoor, hUse 0 hDoor⟩

end Homestead
