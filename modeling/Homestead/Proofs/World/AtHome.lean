/-
  Homestead.Proofs.World.AtHome
  ─────────────────────────────
  **DOORS AND BEDS STAY AT HOME.**

  A house lists the doors and beds that the blueprint puts on its tiles,
  and nobody takes one off the list.  Loading never needs to: a record goes
  to a door or a bed and leaves it one, on its tile.  Time does: what has
  decayed is something else, or is gone, and the house still lists it.

  So a door is a door, on a tile of its house, as long as doors last of all
  types that it may come to have: where such a type says anything about
  decay, it decays to a door.  It is not enough to look at what decays by
  itself.  A door whose time runs may be given a type by a record that says
  of decay only that its time stands still, and then its time runs out with
  nothing to become.

  Main results:
    * `Catalog.Lasts` — a type of doors, or beds, that decay to nothing else;
    * `Fate.stands` — what every change leaves of a door or a bed;
    * `Lived.doors_and_beds_at_home` — the lists of every house are right.
-/
import Homestead.Proofs.World.Lived

namespace Homestead

/-- Such items of a type decay to such items, if the type says something about decay. -/
def Catalog.Lasts (c : Catalog) (f : Fixture) (typeId : TypeId) : Prop :=
  ∀ t, c.get? typeId = some t → f.ofType t = true → t.KnowsDecay →
    ∃ target t', t.decayTo = some target ∧ target ≠ 0 ∧ c.get? target = some t'
      ∧ f.ofType t' = true

/-- A door or a bed of a type of the catalog, whose time runs only if the type knows of decay. -/
structure Item.Stands (c : Catalog) (f : Fixture) (i : Item) : Prop where
  /-- It is one. -/
  kind : f.ofItem i = true
  /-- The catalog has its type, which knows of decay if the time runs. -/
  known : ∃ t, c.get? i.typeId = some t ∧ (i.decayState = .running → t.KnowsDecay)

namespace Item

variable {c : Catalog} {f : Fixture} {i i' : Item}

/-- A fixture stands while its type and its kind stay and its time is not set running. -/
theorem Stands.of_same (h : i.Stands c f) (hType : i'.typeId = i.typeId)
    (hKind : i'.variant.sameKind i.variant = true)
    (hState : i'.decayState = .running → i.decayState = .running) : i'.Stands c f where
  kind := (f.ofVariant_eq_of_sameKind hKind).trans h.kind
  known := by
    obtain ⟨t, ht, hRuns⟩ := h.known
    exact ⟨t, by rw [hType, ht], fun hNow => hRuns (hState hNow)⟩

/-- Who may pass a door does not matter. -/
theorem Stands.of_unlisted (h : i.Stands c f) (hSame : i'.unlisted = i.unlisted) :
    i'.Stands c f := by
  have hKind : ∀ j : Item, f.ofItem j.unlisted = f.ofItem j := fun j =>
    f.ofVariant_eq_of_sameKind (World.sameKind_setList j.variant none)
  have hHere : i.unlisted.Stands c f := ⟨(hKind i).trans h.kind, h.known⟩
  rw [← hSame] at hHere
  exact ⟨(hKind i').symm.trans hHere.kind, hHere.known⟩

/-- A door that becomes another door. -/
theorem Stands.become (h : i.Stands c f) {newType : TypeId} {t : ItemType}
    (hType : c.get? newType = some t) (hKind : f.ofType t = true) :
    (i.become c newType).Stands c f where
  kind := by
    rw [Fixture.ofItem, Fixture.variant_become hType hKind h.kind]
    exact h.kind
  known := ⟨t, by rw [typeId_become, hType], knowsDecay_of_become hType⟩

end Item

namespace World

variable {A : Binding → Prop} {c : Catalog} {b : Blueprint} {f : Fixture} {w w' : World}
  {d : ItemId} {i i' : Item}

/-! ## §1. One door. -/

/-- What can decay knows of decay. -/
theorem knowsDecay_of_canDecay {t : ItemType} (h : t.canDecay = true) : t.KnowsDecay := by
  unfold ItemType.canDecay at h
  rw [Bool.and_eq_true] at h
  exact .inr (.inr h.2)

/-- **A door stands through every change**, and so does a bed. -/
theorem Fate.stands (h : Fate A w d i i') (hw : w.Sound) (hLasts : w.catalog.Lasts f i.typeId)
    (hi : w.graph.item? d = some i) (hStands : i.Stands w.catalog f) : i'.Stands w.catalog f := by
  obtain ⟨t, ht, hRuns⟩ := hStands.known
  cases h with
  | same hPending =>
    rcases hPending with rfl | ⟨n, rfl⟩
    · exact hStands
    · exact hStands.of_same rfl (Variant.sameKind_setPending i.variant n) fun hNow => hNow
  | elapsed n =>
    refine hStands.of_same rfl (Variant.sameKind_refl _) ?_
    rw [i.decayState_increase]
    -- Time that has passed changes neither the type nor whether it runs.
    exact fun hNow => hNow
  | started hMay =>
    -- Only what can decay is started, and such a type knows about decay.
    obtain ⟨i₁, t₁, hi₁, ht₁, hDecays⟩ := mayStart_eq_true hMay
    obtain rfl := Option.some_inj.1 (hi.symm.trans hi₁)
    exact ⟨hStands.kind, t₁, ht₁, fun _ => knowsDecay_of_canDecay hDecays⟩
  | updated r hFields _ =>
    refine hStands.of_same (Item.typeId_applyAll w.catalog i r.updates)
      (Item.sameKind_variant_applyAll w.catalog i r.updates) ?_
    intro hNow
    -- Fields do not start the decay, so an item that runs ran before.
    rcases i.decayState_applyAll w.catalog hFields with hSame | hPending
    · rwa [hSame] at hNow
    · rw [hPending] at hNow
      cases hNow
  | decayed target hTarget =>
    obtain ⟨i₁, t₁, t', hi₁, ht₁, hTo, _, ht'⟩ := decayTarget?_eq_some hTarget
    obtain rfl := Option.some_inj.1 (hi.symm.trans hi₁)
    -- The type has a target, so it says something about decay, and doors of it last.
    have hTypeKind := f.ofType_of_typed (hw.typed d i hi) ht₁ hStands.kind
    obtain ⟨target', t₂, hTo₂, _, ht₂, hKind⟩ :=
      hLasts t₁ ht₁ hTypeKind (.inr (.inr (by rw [hTo]; rfl)))
    obtain rfl := Option.some_inj.1 (hTo.symm.trans hTo₂)
    exact hStands.become ht₂ hKind
  | bound given t _ _ hType hKind =>
    -- A record goes to a door or a bed only if its own type is one as well.
    refine hStands.become hType ?_
    rcases hKind with ⟨hTypeKind, hDoor⟩ | ⟨hTypeKind, hBed⟩
    · obtain rfl := Fixture.eq_of_ofVariant (f := f) (g := .door) hStands.kind hDoor
      exact hTypeKind
    · obtain rfl := Fixture.eq_of_ofVariant (f := f) (g := .bed) hStands.kind hBed
      exact hTypeKind

/-- **A door is never taken away**, because there is something for it to become. -/
theorem decayTarget?_of_stands (hw : w.Sound) (hLasts : w.catalog.Lasts f i.typeId)
    (hi : w.graph.item? d = some i) (hStands : i.Stands w.catalog f) (hDue : w.Due d) :
    w.decayTarget? d ≠ none := by
  obtain ⟨t, ht, hRuns⟩ := hStands.known
  -- It may start to decay, or it does so by now: its type knows about decay.
  have hKnows : t.KnowsDecay := by
    rcases hDue with hMay | ⟨i₁, hi₁, hNow⟩
    · obtain ⟨i₁, t₁, hi₁, ht₁, hDecays⟩ := mayStart_eq_true hMay
      obtain rfl := Option.some_inj.1 (hi.symm.trans hi₁)
      obtain rfl := Option.some_inj.1 (ht.symm.trans ht₁)
      exact knowsDecay_of_canDecay hDecays
    · obtain rfl := Option.some_inj.1 (hi.symm.trans hi₁)
      exact hRuns hNow
  obtain ⟨target, t', hTo, hZero, ht', _⟩ :=
    hLasts t ht (f.ofType_of_typed (hw.typed d i hi) ht hStands.kind) hKnows
  unfold decayTarget? typeOf?
  rw [hi, Option.bind_some, ht, Option.bind_some, hTo, Option.filter_some,
    if_pos (by rw [ht']; simpa using hZero)]
  exact Option.some_ne_none target

/-! ## §2. All of them. -/

/-- An item stands on a tile of every house that lists it as a door, or as a bed. -/
def AtHome (c : Catalog) (f : Fixture) (w : World) (d : ItemId) : Prop :=
  ∀ n h, w.house? n = some h → d ∈ f.ofHouse h →
    (∃ i, w.graph.item? d = some i ∧ i.Stands c f)
      ∧ ∃ p ∈ h.tiles, d ∈ w.graph.contents (.tile p)

/-- In a world from its map every fixture of a house is at home. -/
theorem atHome_ofBlueprint (h : (ofBlueprint c b).1 = .ok w) (f : Fixture) (d : ItemId) :
    AtHome c f w d := by
  have hHoused := housed_ofBlueprint h
  intro n house hHouse hMem
  obtain ⟨i, hi, hKind⟩ := hHoused.kinds f n house d hHouse hMem
  obtain ⟨p, hp, hLies⟩ := hHoused.lie f n house d hHouse hMem
  have hDrawn := (drawn_ofBlueprint h).items d i hi
  obtain ⟨t, ht⟩ := hDrawn.known
  refine ⟨⟨i, hi, hKind, t, ht, ?_⟩, p, hp, hLies.resolve_right (by rintro ⟨⟩)⟩
  -- On the map no time runs yet.
  intro hRuns
  rw [hDrawn.still] at hRuns
  cases hRuns

/-- A change leaves a door at home if doors of its type last. -/
theorem AtHome.change (hHome : AtHome w.catalog f w d) (hw : w.Sound)
    (hLasts : ∀ i, w.graph.item? d = some i → w.catalog.Lasts f i.typeId) (h : Change A w w') :
    AtHome w.catalog f w' d := by
  intro n house hHouse hMem
  unfold house? at hHouse
  rw [h.houses] at hHouse
  obtain ⟨⟨i, hi, hStands⟩, p, hp, hLies⟩ := hHome n house hHouse hMem
  obtain ⟨i', hi', hFate⟩ := h.fate hw hi
  refine ⟨⟨i', hi', hFate.stands hw (hLasts i hi) hi hStands⟩, p, hp, ?_⟩
  rcases h.mem_tile hw hLies with hStill | ⟨hNone, hDue⟩
  · exact hStill
  · exact absurd hNone (decayTarget?_of_stands hw (hLasts i hi) hi hStands hDue)

/-- An edit of a house leaves a fixture at home. -/
theorem AtHome.editHouse {ρ : Type} [Resolver ρ] (hHome : AtHome c f w d) (names : ρ)
    (e : HouseEdit) : AtHome c f (World.editHouse (w, names) e).1 d := by
  have hSame := sameFittings_editHouse w names e
  intro n house hHouse hMem
  obtain ⟨old, hOld, hVacant⟩ := hSame.house?_eq_some hHouse
  -- The lists of fixtures are no part of what an edit of a house changes, and neither are its
  -- tiles.
  have hList : f.ofHouse house = f.ofHouse old := by
    have hFixtures : f.ofHouse house.vacant = f.ofHouse old.vacant := by rw [hVacant]
    cases f <;> exact hFixtures
  have hTiles : house.tiles = old.tiles := by
    have hSameTiles : house.vacant.tiles = old.vacant.tiles := by rw [hVacant]
    exact hSameTiles
  obtain ⟨⟨i, hi, hStands⟩, p, hp, hLies⟩ := hHome n old hOld (hList ▸ hMem)
  obtain ⟨i', hi', hUnlisted⟩ := hSame.items.exists_unlisted hi
  refine ⟨⟨i', hi', hStands.of_unlisted hUnlisted⟩, p, hTiles ▸ hp, ?_⟩
  rw [Graph.contents, Graph.tile?_eq_of_tiles (tiles_editHouse w names e)]
  exact hLies

/-- Every door stays at home that lasts in all types that it may come to have. -/
theorem Lived.atHome (hLived : Lived A c b w) {f : Fixture} {d : ItemId}
    (hLasts : ∀ typeId, MayBecome A c b d typeId → c.Lasts f typeId) : AtHome c f w d := by
  -- The types that the door comes to have are bounded along the way, so both are proved together.
  have hHome : Accounted A c b w ∧ AtHome c f w d := by
    refine hLived.keeps (P := fun v => Accounted A c b v ∧ AtHome c f v d) ?_ ?_ ?_
    · exact fun v hBuilt => ⟨accounted_ofBlueprint hBuilt, atHome_ofBlueprint hBuilt f d⟩
    · intro v ρ _ names e hv
      exact ⟨hv.1.editHouse names e, hv.2.editHouse names e⟩
    · intro v v' hChange hSound hCatalog hv
      refine ⟨hv.1.change hSound hCatalog hChange, ?_⟩
      subst hCatalog
      exact hv.2.change hSound (fun i hi => hLasts i.typeId (hv.1.types d i hi)) hChange
  exact hHome.2

/-- **Every list of doors is right, and every list of beds**: after houses and house tiles were
loaded, whatever was stored, and time has passed, all in any order, what a house lists as its doors
are doors, and what it lists as its beds are beds, and each lies on a tile of the house.  So it is
with a door if doors last of all types that the door may come to have, and with a bed if beds do;
what other items are and become has no part in it. -/
theorem Lived.doors_and_beds_at_home (hLived : Lived A c b w) {n : UInt32} {h : House}
    (hHouse : w.house? n = some h) :
    (∀ d ∈ h.doors, (∀ typeId, MayBecome A c b d typeId → c.Lasts .door typeId) →
      (∃ i, w.graph.item? d = some i ∧ i.isDoor = true)
        ∧ ∃ p ∈ h.tiles, d ∈ w.graph.contents (.tile p))
    ∧ ∀ d ∈ h.beds, (∀ typeId, MayBecome A c b d typeId → c.Lasts .bed typeId) →
      (∃ i, w.graph.item? d = some i ∧ i.isBed = true)
        ∧ ∃ p ∈ h.tiles, d ∈ w.graph.contents (.tile p) := by
  constructor
  · intro d hMem hLasts
    obtain ⟨⟨i, hi, hStands⟩, hLies⟩ := hLived.atHome (f := .door) hLasts n h hHouse hMem
    exact ⟨⟨i, hi, hStands.kind⟩, hLies⟩
  · intro d hMem hLasts
    obtain ⟨⟨i, hi, hStands⟩, hLies⟩ := hLived.atHome (f := .bed) hLasts n h hHouse hMem
    exact ⟨⟨i, hi, hStands.kind⟩, hLies⟩

end World

/-! ## §3. A bed that decays. -/

/-- A bed that rots into a bed lasts. -/
theorem bedCatalog_lasts_bed : (bedCatalog 1).Lasts .bed 1 := by
  intro t ht _ _
  obtain rfl := Option.some_inj.1 ((bedCatalog_get?_bed 1).symm.trans ht)
  exact ⟨1, rottingBed 1, rfl, by decide, bedCatalog_get?_bed 1, rfl⟩

/-- No door of the catalog knows of decay. -/
theorem bedCatalog_lasts_door (typeId : TypeId) : (bedCatalog 1).Lasts .door typeId := by
  intro t ht hDoor hKnows
  -- Type by type: one is a door, and it has no time.
  rw [bedCatalog_get?] at ht
  split_ifs at ht
  · rw [← Option.some_inj.1 ht] at hDoor
    cases hDoor
  · rw [← Option.some_inj.1 ht] at hDoor
    cases hDoor
  · rw [← Option.some_inj.1 ht] at hKnows
    exact absurd hKnows (by decide)
  · rw [← Option.some_inj.1 ht] at hDoor
    cases hDoor

namespace World

/-- The house of that bed, after a second. -/
def bedHouse (target : TypeId) : House :=
  ((bedLater target).house? 1).getD { id := 1 }

/-- The bed and the door are on the list, and each is what it should be.  A bed of straw would not
last, but this one is not of straw. -/
theorem doors_and_beds_at_home_bedroom :
    Lived Binding.ForBed (bedCatalog 1) bedroom (bedLater 1)
      ∧ (bedLater 1).house? 1 = some (bedHouse 1) ∧ (bedHouse 1).doors = [1]
      ∧ (bedHouse 1).beds = [0]
      ∧ (∀ typeId, MayBecome Binding.ForBed (bedCatalog 1) bedroom 0 typeId →
        (bedCatalog 1).Lasts .bed typeId)
      ∧ (∃ i, (bedLater 1).graph.item? 1 = some i ∧ i.isDoor = true)
      ∧ (∃ i, (bedLater 1).graph.item? 0 = some i ∧ i.isBed = true)
      ∧ ∃ p ∈ (bedHouse 1).tiles, 0 ∈ (bedLater 1).graph.contents (.tile p) := by
  have hLived : Lived Binding.ForBed (bedCatalog 1) bedroom (bedLater 1) :=
    .aged lived_bedItems_forBed 1000
  have hHouse : (bedLater 1).house? 1 = some (bedHouse 1) := by
    decide +kernel
  have hDoors : (bedHouse 1).doors = [1] := by
    decide +kernel
  have hBeds : (bedHouse 1).beds = [0] := by
    decide +kernel
  -- The bed that rots becomes itself, and the archive has records of that bed only.
  have hLasts : ∀ typeId, MayBecome Binding.ForBed (bedCatalog 1) bedroom 0 typeId →
      (bedCatalog 1).Lasts .bed typeId := by
    intro typeId hMay
    rw [mayBecome_bed hMay]
    exact bedCatalog_lasts_bed
  obtain ⟨hAllDoors, hAllBeds⟩ := hLived.doors_and_beds_at_home hHouse
  obtain ⟨hDoor, _⟩ :=
    hAllDoors 1 (by rw [hDoors]; decide) fun typeId _ => bedCatalog_lasts_door typeId
  obtain ⟨hBed, hLies⟩ := hAllBeds 0 (by rw [hBeds]; decide) hLasts
  exact ⟨hLived, hHouse, hDoors, hBeds, hLasts, hDoor, hBed, hLies⟩

/-- Once the bed has become something else, the house still lists it. -/
theorem rotten_bed_listed :
    Lived Binding.SparesSleepers (bedCatalog 2) bedroom (bedLater 2)
      ∧ (bedLater 2).house? 1 = some (bedHouse 2) ∧ 0 ∈ (bedHouse 2).beds
      ∧ ((bedLater 2).graph.item? 0).map (·.isBed) = some false :=
  ⟨.aged lived_rottenItems 1000, by decide +kernel, by decide +kernel, by decide +kernel⟩

end World

end Homestead
