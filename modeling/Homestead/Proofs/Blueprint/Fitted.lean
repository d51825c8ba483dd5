/-
  Homestead.Proofs.Blueprint.Fitted
  ─────────────────────────────────
  **THE HOUSES OF A BLUEPRINT ARE VACANT.**

  In the world of a blueprint no house has an owner or a list, and no door
  has a list of who may pass.  Every item that is registered as a door of a
  house is one, and is registered once and with one house only.

  Main results:
    * `Fitted` — houses without anybody, and their doors;
    * `yields_build_every` — what holds of the items of an entry;
    * `fitted_ofBlueprint` — worlds of blueprints.
-/
import Homestead.Proofs.House.Edits
import Homestead.Proofs.Graph.Advance

namespace Homestead

open Drafting

/-! ## §1. Items of entries. -/

mutual

/-- **What holds of every item that is drawn holds of all items of an entry.** -/
theorem yields_build_every {c : Catalog} {P : Item → Prop}
    (hP : ∀ (s : ItemSketch) (new i : Item), Item.create? c s.typeId s.count = some new →
      s.finish new = .ok i → P i) : ∀ e : ItemEntry,
    Yields (e.build c) fun o => ∀ t, o = some t → t.Every fun i _ => P i
  | .mk sketch contents => by
    rw [ItemEntry.build]
    cases hNew : Item.create? c sketch.typeId sketch.count with
    | none =>
      refine yields_bind yields_any fun _ _ => yields_bind yields_any fun _ _ => ?_
      -- There is no tree, so there is nothing to show.
      exact yields_pure fun t ht => by cases ht
    | some new =>
      refine yields_bind (P := P) (yields_ofExcept fun i h => hP sketch new i hNew h) ?_
      intro item hItem
      refine yields_bind yields_any fun _ _ => ?_
      refine yields_bind (yields_buildContents_every hP item contents) ?_
      intro trees hTrees
      refine yields_pure ?_
      intro t ht
      cases ht
      exact ⟨hItem, hTrees⟩

/-- What is true of every finished item is true throughout the contents that are built. -/
theorem yields_buildContents_every {c : Catalog} {P : Item → Prop}
    (hP : ∀ (s : ItemSketch) (new i : Item), Item.create? c s.typeId s.count = some new →
      s.finish new = .ok i → P i) (holder : Item) : ∀ es : List ItemEntry,
    Yields (ItemEntry.buildContents c holder es) fun ts => ItemTree.EveryOf (fun i _ => P i) ts
  | [] => by
    rw [ItemEntry.buildContents]
    exact yields_pure trivial
  | e :: es => by
    rw [ItemEntry.buildContents]
    refine yields_bind (yields_build_every hP e) ?_
    intro o ho
    cases o with
    | none => exact yields_buildContents_every hP holder es
    | some tree =>
      dsimp only
      split_ifs
      · -- What cannot hold anything ends the building, whatever comes after it.
        exact yields_bind (P := fun _ => False) (yields_throw _) fun _ h => h.elim
      · refine yields_bind (yields_buildContents_every hP holder es) ?_
        intro trees hTrees
        exact yields_pure ⟨ho tree rfl, hTrees⟩

end

/-- A destination is no list. -/
theorem Item.list?_withDestination {i i' : Item} {destination : Option Position}
    (h : i.withDestination destination = .ok i') : i'.variant.list? = i.variant.list? := by
  unfold withDestination at h
  cases destination with
  | none =>
    cases h
    rfl
  | some p =>
    dsimp only at h
    split_ifs at h
    cases h
    show (i.variant.setDestination p).list? = _
    cases i.variant <;> rfl

/-- Nothing that is drawn of an item is a list of who may pass. -/
theorem Item.list?_finish {s : ItemSketch} {i i' : Item} (h : s.finish i = .ok i') :
    i'.variant.list? = i.variant.list? := by
  unfold ItemSketch.finish at h
  obtain ⟨i₂, hDoor, hRest⟩ := bind_eq_ok.1 h
  have hDoorList : i₂.variant.list? = i.variant.list? := by
    unfold Item.withDoorNumber at hDoor
    split_ifs at hDoor <;> cases hDoor <;> rfl
  refine (Item.list?_withDestination hRest).trans (.trans ?_ hDoorList)
  cases s.text with
  | some text => rw [variant_setText]
  | none => rfl

/-- A new item has no list of who may pass. -/
theorem Item.list?_create? {c : Catalog} {id : TypeId} {n : UInt16} {i : Item}
    (h : Item.create? c id n = some i) : i.variant.list? = none := by
  obtain ⟨t, _, rfl⟩ := Option.map_eq_some_iff.1 h
  rw [Item.variant_ofType]
  unfold ItemType.variant
  cases t.group <;> rfl

namespace World

/-! ## §2. Vacant houses. -/

/-- The houses of a world as a blueprint gives them. -/
structure Fitted (w : World) : Prop where
  /-- No house has an owner, a rent that is paid, a warning or a list. -/
  vacant : ∀ id h, w.house? id = some h → h.vacant = h
  /-- Doors are doors, and are registered once. -/
  doors : ∀ id h, w.house? id = some h → h.doors.Nodup
    ∧ ∀ door ∈ h.doors, ∃ i, w.graph.item? door = some i ∧ i.isDoor = true
  /-- No door belongs to two houses. -/
  apart : ∀ id id' h h', w.house? id = some h → w.house? id' = some h' →
    ∀ door ∈ h.doors, door ∈ h'.doors → id = id'
  /-- No door has a list. -/
  unlisted : w.graph.AllItems fun i => i.variant.list? = none

variable {c : Catalog} {w : World}

/-- A world without items is fitted. -/
theorem fitted_empty (c : Catalog) (name : String) : Fitted { catalog := c, name } where
  vacant id h hHouse := by cases hHouse
  doors id h hHouse := by cases hHouse
  apart id id' h h' hHouse := by cases hHouse
  unlisted id i hi := by cases hi

/-- Another graph in which all items are firm. -/
theorem Fitted.withGraph (h : Fitted w) {g : Graph} (hFirm : w.graph.Advances Item.Firm g)
    (hUnlisted : g.AllItems fun i => i.variant.list? = none) : Fitted { w with graph := g } where
  vacant := h.vacant
  apart := h.apart
  unlisted := hUnlisted
  doors id house hHouse := by
    obtain ⟨hNodup, hDoors⟩ := h.doors id house hHouse
    refine ⟨hNodup, ?_⟩
    intro door hMem
    obtain ⟨i, hi, hDoor⟩ := hDoors door hMem
    obtain ⟨i', hi', hSame⟩ := hFirm door i hi
    exact ⟨i', hi', hSame.isDoor_eq.trans hDoor⟩

/-- Whether a world is fitted is told by its items. -/
theorem Fitted.withItems (h : Fitted w) {g : Graph} (hItems : ∀ j, g.item? j = w.graph.item? j) :
    Fitted { w with graph := g } := by
  refine h.withGraph (Graph.advances_of_item? Item.Firm.refl ?_) (h.unlisted.of_item? hItems)
  intro j i hi
  rw [hItems, hi]

/-- A vacant house whose doors are those of the one under its number, and at most one more that is
registered nowhere. -/
theorem Fitted.insert (h : Fitted w) {number : UInt32} {house : House}
    (hVacant : house.vacant = house) (hNodup : house.doors.Nodup)
    (hDoors : ∀ door ∈ house.doors, ∃ i, w.graph.item? door = some i ∧ i.isDoor = true)
    (hApart : ∀ id other, w.house? id = some other → id ≠ number →
      ∀ door ∈ house.doors, door ∉ other.doors) :
    Fitted { w with houses := w.houses.insert number house } where
  unlisted := h.unlisted
  vacant id house' hHouse := by
    rw [house?, house?_insert] at hHouse
    split_ifs at hHouse
    · cases hHouse
      exact hVacant
    · exact h.vacant id house' hHouse
  doors id house' hHouse := by
    rw [house?, house?_insert] at hHouse
    split_ifs at hHouse
    · cases hHouse
      exact ⟨hNodup, hDoors⟩
    · exact h.doors id house' hHouse
  apart id id' h₁ h₂ hFirst hSecond door hMem hMem' := by
    -- The new house is one of the two, both, or neither.
    rw [house?, house?_insert] at hFirst hSecond
    split_ifs at hFirst hSecond with hid hid' hid'
    · rw [hid, hid']
    · cases hFirst
      exact absurd hMem' (hApart id' h₂ hSecond hid' door hMem)
    · cases hSecond
      exact absurd hMem (hApart id h₁ hFirst hid door hMem')
    · exact h.apart id id' h₁ h₂ hFirst hSecond door hMem hMem'

/-! ## §3. Building keeps houses vacant. -/

/-- Entering a house leaves the world fitted. -/
theorem yields_enterHouse_fitted (h : Fitted w) (e : HouseEntry) :
    Yields (w.enterHouse e) Fitted := by
  unfold enterHouse
  split_ifs
  · exact yields_bind (P := fun _ => False) (yields_throw _) fun _ h => h.elim
  · refine yields_pure (h.insert rfl List.nodup_nil ?_ ?_)
    · exact fun door hMem => absurd hMem List.not_mem_nil
    · exact fun _ _ _ _ door hMem => absurd hMem List.not_mem_nil

/-- Claiming a tile leaves the world fitted. -/
theorem yields_claimTile_fitted (h : Fitted w) (p : Position) (house : Option UInt32) :
    Yields (w.claimTile p house) Fitted := by
  unfold claimTile
  cases house with
  | none => exact yields_pure h
  | some number =>
    dsimp only
    cases hHouse : w.house? number with
    | none => exact yields_throw _
    | some house =>
      refine yields_pure ?_
      obtain ⟨hNodup, hDoors⟩ := h.doors number house hHouse
      -- The doors of the house stay, so no other house has one of them.
      have hApart : ∀ id other, w.house? id = some other → id ≠ number →
          ∀ door ∈ house.doors, door ∉ other.doors := by
        intro id other hOther hne door hMem hMem'
        exact hne (h.apart id number other house hOther hHouse door hMem' hMem)
      have hVacant := h.vacant number house hHouse
      unfold updateHouse House.addTile
      rw [hHouse]
      dsimp only
      split_ifs
      · exact h.insert hVacant hNodup hDoors hApart
      · have hTile := h.withItems (item?_setTileHouse w.graph p (some house.id))
        refine hTile.insert ?_ hNodup ?_ hApart
        · show ({ house.vacant with tiles := house.tiles ++ [p] } : House) = _
          rw [hVacant]
        · exact (hTile.doors number house hHouse).2

/-- Registering an item that is registered nowhere. -/
theorem Fitted.addFixture (h : Fitted w) (number : UInt32) {id : ItemId}
    (hFresh : ∀ n house, w.house? n = some house → id ∉ house.doors) :
    Fitted (w.updateHouse number fun house g => house.addFixture g id) := by
  cases hHouse : w.house? number with
  | none =>
    unfold updateHouse
    rw [hHouse]
    exact h
  | some house =>
    obtain ⟨hNodup, hDoors⟩ := h.doors number house hHouse
    -- A door of this house is on the list of no other.
    have hApart : ∀ n other, w.house? n = some other → n ≠ number →
        ∀ door ∈ house.doors, door ∉ other.doors := by
      intro n other hOther hne door hMem hMem'
      exact hne (h.apart n number other house hOther hHouse door hMem' hMem)
    have hVacant := h.vacant number house hHouse
    rcases addFixture_cases hHouse id with hSame | ⟨f, i, hi, hKind, _, hEq⟩
    · rw [hSame]
      exact h.insert hVacant hNodup hDoors hApart
    · rw [hEq]
      -- That it is told its house changes nothing else about a door or a bed.
      have hTold : Fitted { w with graph := w.graph.update id (f.told house.id) } := by
        refine h.withGraph ?_ ?_
        · exact Graph.advances_update Item.Firm.refl id fun i _ => f.firm_told house.id i
        · exact h.unlisted.update id _ fun i _ hi => (f.firm_told house.id i).list.trans hi
      -- The list grows by the new item, and by a door only.
      have hSplit : ∀ door ∈ (f.register house id).doors,
          door ∈ house.doors ∨ f = .door ∧ door = id := by
        intro door hMem
        rcases (Fixture.mem_ofHouse_register (g := .door)).1 hMem with hOld | ⟨hDoor, hNew⟩
        · exact .inl hOld
        · exact .inr ⟨hDoor.symm, hNew⟩
      refine hTold.insert ?_ ?_ ?_ ?_
      · cases f with
        | door =>
          show ({ house.vacant with doors := house.doors ++ [id] } : House) = _
          rw [hVacant]
          rfl
        | bed =>
          show ({ house.vacant with beds := house.beds ++ [id] } : House) = _
          rw [hVacant]
          rfl
      · cases f with
        | door =>
          refine List.nodup_append.2 ⟨hNodup, List.nodup_singleton id, ?_⟩
          intro door hMem door' hMem'
          rw [List.mem_singleton.1 hMem']
          rintro rfl
          -- A door that is new stands on no list so far.
          exact hFresh number house hHouse hMem
        | bed => exact hNodup
      · intro door hDoor
        rcases hSplit door hDoor with hOld | ⟨rfl, rfl⟩
        · exact (hTold.doors number house hHouse).2 door hOld
        · obtain ⟨i', hi', hSame⟩ := Graph.advances_update (g := w.graph) Item.Firm.refl door
            (fun i _ => Fixture.door.firm_told house.id i) door i hi
          exact ⟨i', hi', hSame.isDoor_eq.trans hKind⟩
      · intro n other hOther hne door hDoor
        rcases hSplit door hDoor with hOld | ⟨_, rfl⟩
        · exact hApart n other hOther hne door hOld
        · exact hFresh n other hOther

/-- Entering a tree without lists leaves the world fitted. -/
theorem yields_enterTree_fitted (h : Drawn c w) (hFitted : Fitted w) {t : ItemTree}
    (ht : t.Drawn c) (hList : t.Every fun i _ => i.variant.list? = none) (p : Position)
    (house : Option UInt32) : Yields (w.enterTree p house t) Fitted := by
  have hPlanted := Graph.planted_create h.consistent ht.1
  have hNew : Fitted { w with graph := (w.graph.create t).2 } := by
    refine hFitted.withGraph (Graph.advances_of_item? Item.Firm.refl ?_)
      (hFitted.unlisted.planted hPlanted ⟨hList, trivial⟩)
    exact fun j i hi => Graph.item?_planted h.consistent hPlanted hi
  -- Doors that are registered were there before the tree.
  have hFresh : ∀ n house, w.house? n = some house → (w.graph.create t).1 ∉ house.doors := by
    intro n house hHouse hMem
    obtain ⟨_, hDoors⟩ := hFitted.doors n house hHouse
    obtain ⟨i, hi, _⟩ := hDoors _ hMem
    obtain ⟨node, hNode, _⟩ := Graph.item?_eq_some.1 hi
    have hOld := h.consistent.numbered _ node hNode
    exact Nat.not_lt.2 (hPlanted.root _ List.mem_cons_self).1 hOld
  have hPut : ∀ w₁ : World, Fitted w₁ → Yields (w₁.putOn p (w.graph.create t).1) Fitted :=
    fun w₁ hw₁ => yields_putOn fun g hAdd => hw₁.withItems (Graph.item?_add hAdd)
  cases house with
  | none => exact hPut _ hNew
  | some number => exact hPut _ (hNew.addFixture number hFresh)

/-- Entering an item leaves the world fitted. -/
theorem yields_enterItem_fitted (h : Drawn c w) (hFitted : Fitted w) (p : Position)
    (house : Option UInt32) (e : ItemEntry) : Yields (enterItem p house w e) Fitted := by
  unfold enterItem
  rw [h.catalog]
  refine yields_bind ((yields_build c e).and
    (yields_build_every (P := fun i => i.variant.list? = none) ?_ e)) ?_
  · exact fun s new i hNew hFinish => (Item.list?_finish hFinish).trans (Item.list?_create? hNew)
  · rintro o ⟨hDrawn, hList⟩
    cases o with
    | none => exact yields_pure hFitted
    | some tree =>
      have hTree := yields_enterTree_fitted h hFitted (hDrawn tree rfl) (hList tree rfl) p
      cases house with
      | none => exact hTree none
      -- On the tile of a house, what moves is left out.
      | some number =>
        dsimp only
        split_ifs
        · refine yields_bind yields_any fun _ _ => yields_bind yields_any fun _ _ => ?_
          exact yields_pure hFitted
        · exact hTree (some number)

/-- Entering a tile leaves the world fitted. -/
theorem yields_enterTile_fitted (h : Drawn c w) (hFitted : Fitted w) (e : TileEntry) :
    Yields (w.enterTile e) Fitted := by
  unfold enterTile
  split_ifs with hTwice
  · exact yields_bind (P := fun _ => False) (yields_throw _) fun _ h => h.elim
  · have hNone : w.graph.tile? e.position = none := by simpa using hTwice
    obtain ⟨hNew, hTile⟩ := h.ensureTile hNone
    have hSame := w.graph.item?_ensureTile e.position
    refine yields_bind yields_any fun _ _ => ?_
    refine yields_bind ((yields_claimTile hNew hTile e.house).and
      (yields_claimTile_fitted (hFitted.withItems hSame) e.position e.house)) ?_
    intro w' hw'
    -- Both invariants go along the entries, because an entry is added to a drawn world only.
    refine (yields_foldlM (P := fun w => (Drawn c w ∧ w.houseOf? e.position = some e.house)
      ∧ Fitted w) ?_ e.items hw').imp fun _ hDone => hDone.2
    intro w'' entry hw''
    exact (yields_enterItem entry hw''.1).and
      (yields_enterItem_fitted hw''.1.1 hw''.2 e.position e.house entry)

/-- **The houses of a blueprint are vacant**, and their doors are doors, each registered once. -/
theorem fitted_ofBlueprint {b : Blueprint} (h : (ofBlueprint c b).1 = .ok w) : Fitted w := by
  have hBoth : Drawn c w ∧ Fitted w := by
    refine ofBlueprint_induction (P := fun w => Drawn c w ∧ Fitted w)
      ⟨drawn_empty c b.name, fitted_empty c b.name⟩ ?_ ?_ h
    · exact fun w e hw => (yields_enterHouse hw.1 e).and (yields_enterHouse_fitted hw.2 e)
    · exact fun w e hw => (yields_enterTile hw.1 e).and (yields_enterTile_fitted hw.1 hw.2 e)
  exact hBoth.2

end World

end Homestead
