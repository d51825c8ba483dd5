/-
  Homestead.Proofs.World.Lived
  ────────────────────────────
  **WORLDS THAT HAVE LIVED A WHILE, AND WHO SLEEPS IN THEM.**

  A world is drawn from its blueprint; then houses and house tiles are
  loaded, and time passes, in any order and as often as one likes.  What
  the blueprint gives, and what every edit of a house and every single
  change keeps, such a world has.

  One such property is of which types an item may be: of the type that it
  has on the map, of those of the records that go to it, and of those that
  these decay to.  So what the catalog has to say for an item to stay what
  it is, it has to say of these types only.

  Another one is that the register of sleepers tells the truth: who is
  registered for a bed is the one who sleeps in it.  There are two ways to
  lose it.  A bed that decays to something that is no bed keeps its entry,
  because the entry is looked for only after the bed has lost its sleeper;
  and a record that goes to a bed and puts somebody else into it, or
  nobody, leaves the entry of the former sleeper.

  Main results:
    * `Lived` — the worlds that loading and time lead to;
    * `Lived.keeps` — what holds of all of them;
    * `Lived.mayBecome` — of which types an item is;
    * `Lived.sleeps_where_registered` — the register tells the truth.
-/
import Homestead.Proofs.Blueprint.Housed
import Homestead.Proofs.World.Fates
import Homestead.Proofs.World.Reached
import Homestead.Proofs.World.Rejected

namespace Homestead

namespace World

/-! ## §1. Worlds that have lived. -/

/-- The worlds that loading and time lead to, where records go to items of the map only as `A`
allows. -/
inductive Lived (A : Binding → Prop) (c : Catalog) (b : Blueprint) : World → Prop where
  /-- The world of the blueprint. -/
  | drawn {w : World} (h : (ofBlueprint c b).1 = .ok w) : Lived A c b w
  /-- Houses are loaded. -/
  | houses {w : World} (hw : Lived A c b w) {a : Archive} {ρ : Type} [Resolver ρ]
    {names names' : ρ} {loaded : Loaded HouseReport}
    (h : w.loadHouses a names = .ok (loaded, names')) : Lived A c b loaded.world
  /-- House tiles are loaded. -/
  | items {w : World} (hw : Lived A c b w) {a : Archive} {loaded : Loaded LoadReport}
    (h : w.loadItems a = .ok loaded)
    (hAllowed : ∀ rows, a.tileRows = .ok rows →
      ∀ bound ∈ Restoring.bindings { world := w } rows, A bound) : Lived A c b loaded.world
  /-- Time passes. -/
  | aged {w : World} (hw : Lived A c b w) (elapsed : Int) : Lived A c b (w.processDecay elapsed).1

variable {A : Binding → Prop} {c : Catalog} {b : Blueprint} {w w' : World}

/-- What is lived through is reached. -/
theorem Lived.reached (h : Lived A c b w) : Reached c b w := by
  induction h with
  | drawn h => exact .drawn h
  | houses _ h ih => exact .houses ih h
  | items _ h _ ih => exact .items ih h
  | aged _ elapsed ih => exact .aged ih elapsed

/-- **What holds at first, and is kept by every edit and every change, holds always.** -/
theorem Lived.keeps {P : World → Prop} (h : Lived A c b w)
    (hDrawn : ∀ v, (ofBlueprint c b).1 = .ok v → P v)
    (hEdit : ∀ (v : World) {ρ : Type} [Resolver ρ] (names : ρ) (e : HouseEdit),
      P v → P (editHouse (v, names) e).1)
    (hChange : ∀ v v', Change A v v' → v.Sound → v.catalog = c → P v → P v') : P w := by
  -- A run of changes keeps the property, since the world stays sound with its catalog.
  have hRun : ∀ {v v' : World}, Reached c b v → Changes A v v' → P v → P v' := by
    intro v v' hv hChanges hHere
    refine (hChanges.keeps (P := fun u => u.Sound ∧ u.catalog = c ∧ P u)
      ⟨hv.sound, hv.catalog, hHere⟩ ?_).2.2
    rintro u u' hStep ⟨hSound, hCatalog, hu⟩
    exact ⟨hStep.sound hSound, hStep.catalog.trans hCatalog, hChange u u' hStep hSound hCatalog hu⟩
  induction h with
  | drawn h => exact hDrawn _ h
  | @houses v hv a ρ _ names names' loaded h ih =>
    obtain ⟨edits, hEdits⟩ := edits_of_loadHouses h
    rw [← hEdits]
    have hAll : ∀ (edits : List HouseEdit) (u : World) (names : ρ), P u →
        P (u.editHouses names edits).1 := by
      intro edits
      induction edits with
      | nil => exact fun u names hu => hu
      | cons e edits ihEdits => exact fun u names hu => ihEdits _ _ (hEdit u names e hu)
    exact hAll edits v names ih
  | items hv h hAllowed ih =>
    exact hRun hv.reached (changes_loadItems_of_allowed hv.reached.sound h hAllowed) ih
  | aged hv elapsed ih => exact hRun hv.reached (changes_processDecay _ elapsed) ih

/-! ## §2. The types of an item. -/

/-- The types that the item under a number may come to have, where records go to it only as `A`
allows. -/
inductive MayBecome (A : Binding → Prop) (c : Catalog) (b : Blueprint) (d : ItemId) :
    TypeId → Prop where
  /-- The type that it has on the map. -/
  | drawn {w : World} {i : Item} (h : (ofBlueprint c b).1 = .ok w)
    (hi : w.graph.item? d = some i) : MayBecome A c b d i.typeId
  /-- Any type, if it is not on the map but is made later. -/
  | made (hNone : ∀ w, (ofBlueprint c b).1 = .ok w → w.graph.item? d = none) (typeId : TypeId) :
    MayBecome A c b d typeId
  /-- The type of a record that goes to it. -/
  | bound (given : Binding) (h : A given) (hItem : given.item = d) :
    MayBecome A c b d given.record.typeId
  /-- What such a type decays to. -/
  | decayed {typeId target : TypeId} {t : ItemType} (h : MayBecome A c b d typeId)
    (ht : c.get? typeId = some t) (hTo : t.decayTo = some target) : MayBecome A c b d target

/-- Every item is of a type that it may come to have, and those of the map are still there. -/
structure Accounted (A : Binding → Prop) (c : Catalog) (b : Blueprint) (w : World) : Prop where
  /-- Items are of such types. -/
  types : ∀ d i, w.graph.item? d = some i → MayBecome A c b d i.typeId
  /-- No item of the map has gone out of existence. -/
  there : ∀ v d i, (ofBlueprint c b).1 = .ok v → v.graph.item? d = some i →
    (w.graph.item? d).isSome

/-- In a world from its map all items are accounted for: they are of the types that were drawn. -/
theorem accounted_ofBlueprint (h : (ofBlueprint c b).1 = .ok w) : Accounted A c b w where
  types _ _ hi := .drawn h hi
  there v d i hv hi := by
    obtain rfl := Except.ok.inj (hv.symm.trans h)
    rw [hi]
    rfl

/-- A single change keeps all items accounted for, one case for each kind of change. -/
theorem Accounted.change (hHere : Accounted A c b w) (hw : w.Sound) (hCatalog : w.catalog = c)
    (h : Change A w w') : Accounted A c b w' where
  types d i' hi' := by
    cases hi : w.graph.item? d with
    | none =>
      -- What is new is not on the map, since the items of the map were there all along.
      refine .made ?_ i'.typeId
      intro v hv
      cases hOld : v.graph.item? d with
      | none => rfl
      | some i =>
        have hThere := hHere.there v d i hv hOld
        rw [hi] at hThere
        cases hThere
    | some i =>
      obtain ⟨i₁, hi₁, hFate⟩ := h.fate hw hi
      obtain rfl := Option.some_inj.1 (hi'.symm.trans hi₁)
      have hOld := hHere.types d i hi
      rcases hFate.typeId_cases hi with hSame | ⟨t, target, ht, hTo, hTarget⟩ | ⟨given, hGiven⟩
      · rwa [hSame]
      · rw [hTarget]
        exact hOld.decayed (hCatalog ▸ ht) hTo
      · obtain ⟨hAllowed, hItem, hType⟩ := hGiven
        rw [hType]
        exact .bound given hAllowed hItem
  there v d i hv hi := by
    obtain ⟨i₁, hi₁⟩ := Option.isSome_iff_exists.1 (hHere.there v d i hv hi)
    obtain ⟨i₂, hi₂, _⟩ := h.fate hw hi₁
    rw [hi₂]
    rfl

/-- Who may pass a door has no part in its type. -/
theorem Accounted.editHouse {ρ : Type} [Resolver ρ] (hHere : Accounted A c b w) (names : ρ)
    (e : HouseEdit) : Accounted A c b (World.editHouse (w, names) e).1 where
  types d i' hi' := by
    have hSame := (sameFittings_editHouse w names e).symm
    obtain ⟨i, hi, hUnlisted⟩ := hSame.items.exists_unlisted hi'
    -- An item without its list has the same type.
    have hType : i.unlisted.typeId = i'.unlisted.typeId := by rw [hUnlisted]
    show MayBecome A c b d i'.unlisted.typeId
    rw [← hType]
    exact hHere.types d i hi
  there v d i hv hi := by
    obtain ⟨i₁, hi₁⟩ := Option.isSome_iff_exists.1 (hHere.there v d i hv hi)
    obtain ⟨i₂, hi₂, _⟩ := (sameFittings_editHouse w names e).items.exists_unlisted hi₁
    rw [hi₂]
    rfl

/-- **An item is of a type that it may come to have**, whatever was loaded and however much time
has passed. -/
theorem Lived.mayBecome (h : Lived A c b w) {d : ItemId} {i : Item}
    (hi : w.graph.item? d = some i) : MayBecome A c b d i.typeId := by
  have hAccounted : Accounted A c b w := by
    refine h.keeps ?_ ?_ ?_
    · exact fun v hDrawn => accounted_ofBlueprint hDrawn
    · intro v ρ _ names e hv
      exact hv.editHouse names e
    · intro v v' hChange hSound hCatalog hv
      exact hv.change hSound hCatalog hChange
  exact hAccounted.types d i hi

/-! ## §3. The register of sleepers. -/

/-- A record that goes to a bed leaves the sleepers there who are registered for it. -/
def Binding.SparesSleepers (bound : Binding) : Prop :=
  ∀ g i, bound.world.bedOf? g = some bound.item → bound.world.graph.item? bound.item = some i →
    (i.applyAll bound.world.catalog bound.record.updates).variant.sleeper = g

/-- Who is registered for the item under a number sleeps in it, and it is a bed. -/
def SleeperTrue (w : World) (id : ItemId) : Prop :=
  ∀ g, w.bedOf? g = some id →
    ∃ i, w.graph.item? id = some i ∧ i.isBed = true ∧ i.variant.sleeper = g

/-- The register of sleepers tells the truth of all items. -/
def SleepersTrue (w : World) : Prop :=
  ∀ id, w.SleeperTrue id

end World

/-- A bed of a type decays to a bed only. -/
def Catalog.BedStaysBed (c : Catalog) (typeId : TypeId) : Prop :=
  ∀ t target t', c.get? typeId = some t → t.isBed = true → t.decayTo = some target →
    c.get? target = some t' → t'.isBed = true

namespace World

variable {A : Binding → Prop} {c : Catalog} {b : Blueprint} {w w' : World}

/-- Only a bed has a sleeper. -/
theorem isBed_of_sleeper {v : Variant} (h : v.sleeper ≠ 0) : v.isBed = true := by
  cases v with
  | bed => rfl
  | _ => exact absurd rfl h

/-- **A bed with its sleeper comes out of every change as one**, if it decays to a bed and records
that go to it spare the sleepers who are registered. -/
theorem Fate.isBed_sleeper {id : ItemId} {i i' : Item} {g : UInt32} (hw : w.Sound)
    (hSpares : ∀ given, A given → given.item = id → given.SparesSleepers)
    (hStays : w.catalog.BedStaysBed i.typeId) (h : Fate A w id i i')
    (hi : w.graph.item? id = some i) (hNoted : w.bedOf? g = some id) (hBed : i.isBed = true)
    (hSleeper : i.variant.sleeper = g) : i'.isBed = true ∧ i'.variant.sleeper = g := by
  have hSame : ∀ {j : Item}, j.variant = i.variant → j.isBed = true ∧ j.variant.sleeper = g := by
    intro j hj
    rw [Item.isBed, hj]
    exact ⟨hBed, hSleeper⟩
  cases h with
  | same hPending =>
    rcases hPending with rfl | ⟨n, rfl⟩
    · exact ⟨hBed, hSleeper⟩
    · -- Nothing is on the way to a bed.
      refine hSame ?_
      show i.variant.setPending n = i.variant
      revert hBed
      unfold Item.isBed
      cases i.variant with
      | bed => exact fun _ => rfl
      | _ => exact fun h => by cases h
  | elapsed n => exact hSame rfl
  | started _ => exact hSame rfl
  | updated r _ hAllowed =>
    refine ⟨?_, hSpares _ hAllowed rfl g i hNoted hi⟩
    exact (Variant.isBed_eq_of_sameKind
      (Item.sameKind_variant_applyAll w.catalog i r.updates)).trans hBed
  | decayed target hTarget =>
    obtain ⟨i', t, t', hi', ht, hTo, _, ht'⟩ := decayTarget?_eq_some hTarget
    obtain rfl := Option.some_inj.1 (hi.symm.trans hi')
    have hTypeBed := Fixture.bed.ofType_of_typed (hw.typed id i hi) ht hBed
    exact hSame (Fixture.bed.variant_become ht' (hStays t target t' ht hTypeBed hTo ht') hBed)
  | bound given t _ _ hType hKind =>
    rcases hKind with ⟨_, hDoor⟩ | ⟨hTypeBed, _⟩
    · cases Fixture.eq_of_ofVariant (f := .door) (g := .bed) hDoor hBed
    · exact hSame (Fixture.bed.variant_become hType hTypeBed hBed)

/-- A change keeps the register true of an item, if the item stays a bed and records that go to it
spare the sleepers who are registered. -/
theorem SleeperTrue.change {id : ItemId} (hTrue : w.SleeperTrue id) (hw : w.Sound)
    (hSpares : ∀ given, A given → given.item = id → given.SparesSleepers)
    (hStays : ∀ i, w.graph.item? id = some i → w.catalog.BedStaysBed i.typeId)
    (h : Change A w w') : w'.SleeperTrue id := by
  intro g hBed
  rcases h.bedOf?_cases hBed with hOld | ⟨hGraph, hSomebody, hHere⟩
  · obtain ⟨i, hi, hIsBed, hSleeper⟩ := hTrue g hOld
    obtain ⟨i', hi', hFate⟩ := h.fate hw hi
    exact ⟨i', hi', hFate.isBed_sleeper hw hSpares (hStays i hi) hi hOld hIsBed hSleeper⟩
  · -- Only items in which somebody sleeps are noted, and these are beds.
    unfold sleeperIn at hHere
    rw [hGraph]
    cases hi : w.graph.item? id with
    | none =>
      rw [hi] at hHere
      exact absurd hHere.symm hSomebody
    | some i =>
      rw [hi, Option.map_some, Option.getD_some] at hHere
      exact ⟨i, rfl, isBed_of_sleeper (by rw [hHere]; exact hSomebody), hHere⟩

/-- Houses are edited without anybody being woken. -/
theorem SleeperTrue.editHouse {ρ : Type} [Resolver ρ] {id : ItemId} (hTrue : w.SleeperTrue id)
    (names : ρ) (e : HouseEdit) : (World.editHouse (w, names) e).1.SleeperTrue id := by
  intro g hBed
  unfold bedOf? at hBed
  rw [(catalog_sleepers_editHouse w names e).2] at hBed
  obtain ⟨i, hi, hIsBed, hSleeper⟩ := hTrue g hBed
  obtain ⟨i', hi', hSame⟩ := (sameFittings_editHouse w names e).items.exists_unlisted hi
  refine ⟨i', hi', ?_⟩
  rw [← i'.isBed_unlisted, ← i'.sleeper_unlisted, hSame, i.isBed_unlisted, i.sleeper_unlisted]
  exact ⟨hIsBed, hSleeper⟩

/-- **The register of sleepers tells the truth.**  Whoever is registered for an item sleeps in it,
and it is a bed, after any houses and house tiles have been loaded and any time has passed, in any
order.  Of the types that the item may come to have none may be one of beds that decay to something
else, and no record that goes to it may put somebody else into it while it has a registered
sleeper; what other items are and do has no part in it. -/
theorem Lived.sleeps_where_registered (h : Lived A c b w) {g : UInt32} {id : ItemId}
    (hBed : w.bedOf? g = some id)
    (hSpares : ∀ given, A given → given.item = id → given.SparesSleepers)
    (hStays : ∀ typeId, MayBecome A c b id typeId → c.BedStaysBed typeId) :
    ∃ i, w.graph.item? id = some i ∧ i.isBed = true ∧ i.variant.sleeper = g := by
  -- That the types are accounted for is kept together with it: it bounds what the item is by now.
  have hTrue : Accounted A c b w ∧ w.SleeperTrue id := by
    refine h.keeps (P := fun v => Accounted A c b v ∧ v.SleeperTrue id) ?_ ?_ ?_
    · intro v hDrawn
      refine ⟨accounted_ofBlueprint hDrawn, fun g hNobody => ?_⟩
      rw [(housed_ofBlueprint hDrawn).awake g] at hNobody
      cases hNobody
    · intro v ρ _ names e hv
      exact ⟨hv.1.editHouse names e, hv.2.editHouse names e⟩
    · intro v v' hChange hSound hCatalog hv
      have hHere : ∀ i, v.graph.item? id = some i → v.catalog.BedStaysBed i.typeId := by
        intro i hi
        rw [hCatalog]
        exact hStays i.typeId (hv.1.types id i hi)
      exact ⟨hv.1.change hSound hCatalog hChange, hv.2.change hSound hSpares hHere hChange⟩
  exact hTrue.2 g hBed

/-- Where nobody is registered, nobody has to be spared. -/
theorem Binding.sparesSleepers_of_isEmpty {bound : Binding}
    (h : bound.world.sleepers.isEmpty = true) : bound.SparesSleepers := by
  intro g i hBed
  unfold bedOf? at hBed
  rw [Std.TreeMap.getElem?_of_isEmpty h] at hBed
  cases hBed

end World

/-! ## §4. A bed that decays. -/

/-- A bed that decays to something after a second. -/
def rottingBed (target : TypeId) : ItemType :=
  { id := 1, group := .bed, decaySeconds := 1, decayTo := some target }

/-- A bed that decays to something that is no bed. -/
def strawBed : ItemType :=
  { id := 4, group := .bed, decaySeconds := 1, decayTo := some 2 }

/-- A catalog with doors and with something that is neither. -/
def plainCatalog : Catalog where
  types := (Catalog.empty.types.insert 2 { id := 2 }).insert 3 { id := 3, group := .door }
  keyed := Catalog.keyed_insert
    { types := Catalog.empty.types.insert 2 { id := 2 }
      keyed := Catalog.empty.keyed_insert { id := 2 } } { id := 3, group := .door }

/-- That catalog with straw beds. -/
def strawCatalog : Catalog where
  types := plainCatalog.types.insert 4 strawBed
  keyed := plainCatalog.keyed_insert strawBed

/-- That catalog with the other bed too. -/
def bedCatalog (target : TypeId) : Catalog where
  types := strawCatalog.types.insert 1 (rottingBed target)
  keyed := strawCatalog.keyed_insert (rottingBed target)

/-- The four types of the catalog with beds. -/
theorem bedCatalog_get? (target id : TypeId) :
    (bedCatalog target).get? id = if compare 1 id = .eq then some (rottingBed target)
      else if compare 4 id = .eq then some strawBed
      else if compare 3 id = .eq then some { id := 3, group := .door }
      else if compare 2 id = .eq then some { id := 2 } else none := by
  show ((((Catalog.empty.types.insert 2 _).insert 3 _).insert 4 _).insert 1 _)[id]? = _
  rw [Std.TreeMap.getElem?_insert, Std.TreeMap.getElem?_insert, Std.TreeMap.getElem?_insert,
    Std.TreeMap.getElem?_insert]
  rfl

/-- The bed that may rot. -/
theorem bedCatalog_get?_bed (target : TypeId) :
    (bedCatalog target).get? 1 = some (rottingBed target) :=
  (bedCatalog_get? target 1).trans (if_pos (by decide))

/-- A bed that rots into a bed stays one. -/
theorem bedStaysBed_bed : (bedCatalog 1).BedStaysBed 1 := by
  intro t target t' ht _ hTo ht'
  obtain rfl := Option.some_inj.1 ((bedCatalog_get?_bed 1).symm.trans ht)
  obtain rfl := Option.some_inj.1 hTo
  obtain rfl := Option.some_inj.1 ((bedCatalog_get?_bed 1).symm.trans ht')
  rfl

namespace World

/-- A house with a bed and a door. -/
def bedroom : Blueprint where
  houses := [{ id := 1, name := "", entry := .zero }]
  tiles := [⟨.zero, some 1, [.mk { typeId := 1 } [], .mk { typeId := 3 } []]⟩]

/-- The row of its tile when the character 42 sleeps in the bed. -/
def bedRow : TileRow where
  house := 1
  data := [0, 0, 0, 0, 0, 1, 0, 0, 0, 1, 0, 20, 42, 0, 0, 0, 0]

/-- An archive with that row. -/
def bedArchive : Archive where
  tables := { tiles := [(1, bedRow.data)] }

/-- The world of the house. -/
def bedWorld (target : TypeId) : World :=
  (ofBlueprint (bedCatalog target) bedroom).1.toOption.getD {}

/-- The world once house tiles are loaded. -/
def bedItems (target : TypeId) : Loaded LoadReport :=
  ((bedWorld target).loadItems bedArchive).toOption.getD ⟨{}, {}, []⟩

/-- That world a second later. -/
def bedLater (target : TypeId) : World :=
  ((bedItems target).world.processDecay 1000).1

/-- The record is for the bed, and spares the sleepers who are registered. -/
def Binding.ForBed (given : Binding) : Prop :=
  given.SparesSleepers ∧ given.record.typeId = 1

/-- The bedroom is built from its map. -/
theorem bedWorld_built (target : TypeId)
    (hBuilds : (ofBlueprint (bedCatalog target) bedroom).1.toOption.isSome = true) :
    (ofBlueprint (bedCatalog target) bedroom).1 = .ok (bedWorld target) := by
  unfold bedWorld
  exact eq_ok_of_isSome (ofBlueprint (bedCatalog target) bedroom).1 ({} : World) hBuilds

/-- Loading the archive of beds is a way to live, if the bindings it makes are allowed. -/
theorem lived_bedItems (target : TypeId)
    (hBuilds : (ofBlueprint (bedCatalog target) bedroom).1.toOption.isSome = true)
    (hLoads : ((bedWorld target).loadItems bedArchive).toOption.isSome = true)
    (hAllowed : ∀ given ∈ Restoring.bindings { world := bedWorld target } [bedRow], A given) :
    Lived A (bedCatalog target) bedroom (bedItems target).world := by
  have hLoaded : (bedWorld target).loadItems bedArchive = .ok (bedItems target) := by
    unfold bedItems
    exact eq_ok_of_isSome ((bedWorld target).loadItems bedArchive) _ hLoads
  have hRows : bedArchive.tileRows = .ok [bedRow] :=
    Tables.tileRows_of_stored rfl
  refine .items (.drawn (bedWorld_built target hBuilds)) hLoaded ?_
  intro rows hStored given hMem
  obtain rfl := Except.ok.inj (hRows.symm.trans hStored)
  exact hAllowed given hMem

/-- The archive of beds binds to beds alone. -/
theorem lived_bedItems_forBed : Lived Binding.ForBed (bedCatalog 1) bedroom (bedItems 1).world := by
  refine lived_bedItems 1 (by decide +kernel) (by decide +kernel) ?_
  have hAll : (Restoring.bindings { world := bedWorld 1 } [bedRow]).all
      (fun given => given.world.sleepers.isEmpty && given.record.typeId == 1) = true := by
    decide +kernel
  intro given hMem
  have hGiven := List.all_eq_true.1 hAll given hMem
  rw [Bool.and_eq_true, beq_iff_eq] at hGiven
  exact ⟨Binding.sparesSleepers_of_isEmpty hGiven.1, hGiven.2⟩

/-- The item of the bedroom that is a bed becomes no other. -/
theorem mayBecome_bed {typeId : TypeId}
    (h : MayBecome Binding.ForBed (bedCatalog 1) bedroom 0 typeId) : typeId = 1 := by
  have hBuilt := bedWorld_built 1 (by decide +kernel)
  have hBed : ((bedWorld 1).graph.item? 0).map (·.typeId) = some 1 := by
    decide +kernel
  -- The bed was drawn; it is given records of its own type, and rots into itself.
  induction h with
  | drawn hv hi =>
    obtain rfl := Except.ok.inj (hv.symm.trans hBuilt)
    rw [hi] at hBed
    exact Option.some_inj.1 hBed
  | made hNone _ =>
    rw [hNone (bedWorld 1) hBuilt] at hBed
    cases hBed
  | bound given hGiven _ => exact hGiven.2
  | decayed _ ht hTo ih =>
    subst ih
    obtain rfl := Option.some_inj.1 ((bedCatalog_get?_bed 1).symm.trans ht)
    exact (Option.some_inj.1 hTo).symm

/-- The character sleeps in the bed that he is registered for.  Beds of straw would rot, but this
one is not of straw. -/
theorem sleeps_where_registered_bedroom :
    Lived Binding.ForBed (bedCatalog 1) bedroom (bedItems 1).world
      ∧ (bedItems 1).world.bedOf? 42 = some 0
      ∧ (∀ typeId, MayBecome Binding.ForBed (bedCatalog 1) bedroom 0 typeId →
        (bedCatalog 1).BedStaysBed typeId)
      ∧ ∃ i, (bedItems 1).world.graph.item? 0 = some i ∧ i.isBed = true
        ∧ i.variant.sleeper = 42 := by
  have hBed : (bedItems 1).world.bedOf? 42 = some 0 := by
    decide +kernel
  have hStays : ∀ typeId, MayBecome Binding.ForBed (bedCatalog 1) bedroom 0 typeId →
      (bedCatalog 1).BedStaysBed typeId := by
    intro typeId hMay
    rw [mayBecome_bed hMay]
    exact bedStaysBed_bed
  exact ⟨lived_bedItems_forBed, hBed, hStays,
    lived_bedItems_forBed.sleeps_where_registered hBed (fun _ hGiven _ => hGiven.1) hStays⟩

/-- The archive with a rotten bed spares the sleepers it knows. -/
theorem lived_rottenItems :
    Lived Binding.SparesSleepers (bedCatalog 2) bedroom (bedItems 2).world := by
  refine lived_bedItems 2 (by decide +kernel) (by decide +kernel) ?_
  have hAwake : (Restoring.bindings { world := bedWorld 2 } [bedRow]).all
      (·.world.sleepers.isEmpty) = true := by
    decide +kernel
  exact fun given hMem =>
    Binding.sparesSleepers_of_isEmpty (List.all_eq_true.1 hAwake given hMem)

/-- Once the bed has become something else, the register is wrong. -/
theorem rotten_bed_registered :
    Lived Binding.SparesSleepers (bedCatalog 2) bedroom (bedLater 2)
      ∧ ¬ (bedLater 2).SleepersTrue := by
  refine ⟨.aged lived_rottenItems 1000, ?_⟩
  intro hTrue
  have hNone : ((bedLater 2).graph.item? 0).map (·.isBed) = some false := by
    decide +kernel
  obtain ⟨i, hi, hBed, _⟩ := hTrue 0 42 (by decide +kernel)
  rw [hi, Option.map_some, hBed] at hNone
  cases hNone

end World

end Homestead
