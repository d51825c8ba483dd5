/-
  Homestead.Proofs.World.Kinds
  ────────────────────────────
  **ITEMS ARE OF THE KIND OF THEIR TYPE.**

  An item has a type and a variant, and each of the two says whether it is
  a door, a bed or a container.  They are changed together: an item that
  gets another type gets the variant of that type, unless the catalog does
  not know the type.  Then the item keeps the variant that it has, which
  may be the one of a type from long ago; but as soon as it is of a known
  type again, the two agree.

  Loading looks at the type where it reads a record and at the variant
  where it looks for the item of the map that the record goes to.  That
  item is of the kind of the record's type, even if its own type is unknown
  to the catalog; and it is a container if the record has contents for it.

  Main results:
    * `Event.sound`, `proceedAll_sound` — what happens leaves a world sound;
    * `forall_bindings` — what holds of every record that goes to an item of
      the map;
    * `Reached.kinds_agree` — types and variants agree, and loading can rely
      on it.
-/
import Homestead.Proofs.World.Lived

namespace Homestead

/-! ## §1. An item and a type. -/

/-- An item is of the kind of a type: in a variant like that of new items of it, and a door, a bed
or a container just if they are. -/
structure Item.OfKind (i : Item) (t : ItemType) : Prop where
  /-- It is in a variant of one kind with that of the type. -/
  variant : i.variant.sameKind t.variant = true
  /-- It is a door if these are doors. -/
  door : i.isDoor = t.isDoor
  /-- It is a bed if these are beds. -/
  bed : i.isBed = t.isBed
  /-- It is a container if these are containers. -/
  container : i.isContainer = t.isContainer

variable {i : Item} {t : ItemType}

/-- All else follows from the variant. -/
theorem Item.ofKind_of_sameKind (h : i.variant.sameKind t.variant = true) : i.OfKind t where
  variant := h
  door := (Fixture.door.ofVariant_eq_of_sameKind h).trans (Fixture.door.ofVariant_variant t)
  bed := (Fixture.bed.ofVariant_eq_of_sameKind h).trans (Fixture.bed.ofVariant_variant t)
  container := (Variant.isContainer_eq_of_sameKind h).trans t.isContainer_variant

/-- Of a door and a type of doors no more has to be known, and the same goes for beds. -/
theorem Fixture.ofKind (f : Fixture) (hItem : f.ofItem i = true) (hType : f.ofType t = true) :
    i.OfKind t :=
  Item.ofKind_of_sameKind (f.sameKind_of_ofVariant hItem ((f.ofVariant_variant t).trans hType))

namespace World

open Homestead.Stream Restoring

/-! ## §2. What happens. -/

/-- Something that happens in a world. -/
inductive Event where
  /-- Something is done to items: one is made, copied, given another type, built from a record, put
  somewhere, or changed. -/
  | act (a : Graph.Action)
  /-- The time of an item is started. -/
  | start (id : ItemId)
  /-- Time passes. -/
  | elapse (time : Int)
  /-- House tiles are loaded. -/
  | load (a : Archive)

/-- The world once something has happened.  An archive that cannot be read is not loaded. -/
def proceed (w : World) : Event → World
  | .act a => { w with graph := w.graph.perform w.catalog a }
  | .start id => w.startDecay id
  | .elapse time => (w.processDecay time).1
  | .load a =>
    match w.loadItems a with
    | .ok loaded => loaded.world
    | .error _ => w

/-- The world once many things have happened, one after the other. -/
def proceedAll (w : World) (events : List Event) : World :=
  events.foldl proceed w

variable {w : World} {s : Restoring} {p : Position} {r : Record} {id : ItemId}

/-- **Whatever happens leaves a world sound**, with the types that it had. -/
theorem Event.sound (e : Event) (hw : w.Sound) :
    (w.proceed e).Sound ∧ (w.proceed e).catalog = w.catalog := by
  -- A load that fails leaves the world as it was.
  cases e with
  | act a => exact ⟨hw.perform a, rfl⟩
  | start id =>
    have hKeeps := keeps_startDecay w id
    exact ⟨hKeeps.sound hw, hKeeps.catalog⟩
  | elapse time =>
    have hChanges := changes_processDecay (A := anyBinding) w time
    exact ⟨hChanges.sound hw, hChanges.catalog⟩
  | load a =>
    unfold proceed
    dsimp only
    split
    next loaded hLoaded =>
      have hChanges := changes_loadItems hw hLoaded
      exact ⟨hChanges.sound hw, hChanges.catalog⟩
    next => exact ⟨hw, rfl⟩

/-- A world stays sound through all events, with its catalog. -/
theorem proceedAll_sound (hw : w.Sound) (events : List Event) :
    (w.proceedAll events).Sound ∧ (w.proceedAll events).catalog = w.catalog := by
  induction events generalizing w with
  | nil => exact ⟨hw, rfl⟩
  | cons e events ih =>
    obtain ⟨hSound, hCatalog⟩ := e.sound hw
    obtain ⟨hSound', hCatalog'⟩ := ih hSound
    exact ⟨hSound', hCatalog'.trans hCatalog⟩

/-! ## §3. Records that go to items of the map. -/

/-- A record that a row of house tiles has for an item of the map is one that was read, of a type
that does not move, and the item is the one that is looked up for it. -/
structure Meets (c : Catalog) (bound : Binding) : Prop where
  /-- The world is sound. -/
  sound : bound.world.Sound
  /-- The types are those that the world had before. -/
  catalog : bound.world.catalog = c
  /-- The record was read. -/
  fits : bound.record.Fits c
  /-- It is of a type that does not move. -/
  stays : moves? c bound.record = some false
  /-- The item is looked up for it. -/
  found : ∃ p claimed, bound.world.fixture? p claimed bound.record.typeId = some bound.item

/-- A record that was read and does not move meets the fixture that it is bound to. -/
theorem meets_binding? (hs : s.world.Sound) (hFits : r.Fits s.world.catalog) {bound : Binding}
    (h : s.binding? p r = some bound) : Meets s.world.catalog bound := by
  unfold binding? at h
  split_ifs at h with hMoves
  obtain ⟨id, hFound, rfl⟩ := Option.map_eq_some_iff.1 h
  exact ⟨hs, rfl, hFits, hMoves, p, s.claimed, hFound⟩

/-- Along the records of a row: each one that is brought back leaves a sound world to the next. -/
theorem meets_bindingsWithin (p : Position) (left : Nat) (reader : Reader) (s : Restoring)
    (hs : s.world.Sound) :
    ∀ bound ∈ bindingsWithin p left reader s, Meets s.world.catalog bound := by
  induction left generalizing reader s with
  | zero => exact fun bound hMem => by cases hMem
  | succ left ih =>
    intro bound hMem
    rw [bindingsWithin] at hMem
    cases hDecode : Record.decode s.world.catalog reader with
    | error failure =>
      rw [hDecode] at hMem
      cases hMem
    | ok pair =>
      obtain ⟨record, reader'⟩ := pair
      rw [hDecode] at hMem
      rcases List.mem_append.1 hMem with hHere | hLater
      · exact meets_binding? hs (Record.fits_of_decode hDecode) (Option.mem_toList.1 hHere)
      · -- The next record is read in the world that this one leaves, if it is read at all.
        have hPlace : Changes anyBinding s.world (place p record s).2.world :=
          changes_place hs ((Record.fromFields_givenByReading _).decode hDecode)
            fun _ _ => trivial
        revert hLater hPlace
        cases place p record s with
        | mk result s' =>
          intro hLater hPlace
          cases result with
          | error e => cases hLater
          | ok _ =>
            rw [← hPlace.catalog]
            exact ih reader' s' (hPlace.sound hs) bound hLater

/-- In the bindings of a row, records meet their fixtures. -/
theorem meets_rowBindings (hs : s.world.Sound) (row : TileRow) :
    ∀ bound ∈ s.rowBindings row, Meets s.world.catalog bound := by
  intro bound hMem
  unfold rowBindings at hMem
  split at hMem
  -- A row that has no head, or no tile to go to, binds nothing.
  next => cases hMem
  next p count reader _ =>
    split at hMem
    next => cases hMem
    next =>
      exact meets_bindingsWithin p count.toNat reader { s with
        report := { s.report with rows := s.report.rows + 1 }, claimed := [] } hs bound hMem

/-- **Every record of some rows that goes to an item of the map** was read, and finds a sound
world. -/
theorem meets_bindings (rows : List TileRow) (hs : s.world.Sound) :
    ∀ bound ∈ s.bindings rows, Meets s.world.catalog bound := by
  induction rows generalizing s with
  | nil => exact fun bound hMem => by cases hMem
  | cons row rows ih =>
    intro bound hMem
    rcases List.mem_append.1 hMem with hHere | hLater
    · exact meets_rowBindings hs row bound hHere
    · -- The rows behind it are restored into what the first row makes of the world.
      have hRow : Changes anyBinding s.world (s.restoreRow row).world :=
        changes_restoreRow hs fun _ _ => trivial
      rw [← hRow.catalog]
      exact ih (hRow.sound hs) bound hLater

/-- A record and the item of the map that it goes to are of one kind, and the item has room for the
contents of the record. -/
structure Binding.Suits (bound : Binding) (i : Item) (t : ItemType) : Prop where
  /-- The item. -/
  item : bound.world.graph.item? bound.item = some i
  /-- The type of the record. -/
  type : bound.world.catalog.get? bound.record.typeId = some t
  /-- The item is of the kind of the type. -/
  kind : i.OfKind t
  /-- A record with contents goes to a container. -/
  holds : bound.record.children.isSome → i.isContainer = true

/-- **The item that a record goes to is of the kind of the record's type**, whether or not it is of
that type itself. -/
theorem Meets.suits {bound : Binding} (h : Meets w.catalog bound) : ∃ i t, bound.Suits i t := by
  obtain ⟨hSound, hCatalog, hFits, hStays, p, claimed, hFound⟩ := h
  rw [← hCatalog] at hFits hStays
  obtain ⟨t, ht, -⟩ := type_of_moves? hStays
  obtain ⟨-, -, i, hi, hBound⟩ := fixture?_eq_some hFound
  -- An item of the record's type is in the variant of that type; another one was looked up as a
  -- door or as a bed, so that its own type does not matter.
  have hKind : i.OfKind t := by
    rcases hBound with hSame | ⟨t', ht', hDoor | hBed⟩
    · exact Item.ofKind_of_sameKind (hSound.typed _ i hi t (by rw [hSame]; exact ht))
    · obtain rfl := Option.some_inj.1 (ht.symm.trans ht')
      exact Fixture.door.ofKind hDoor.2 hDoor.1
    · obtain rfl := Option.some_inj.1 (ht.symm.trans ht')
      exact Fixture.bed.ofKind hBed.2 hBed.1
  refine ⟨i, t, hi, ht, hKind, fun hChildren => ?_⟩
  exact isContainer_of_fixture? (s := { world := bound.world }) hSound hFits
    (known_of_moves? hStays) hChildren hi hBound

/-! ## §4. Types and variants agree. -/

/-- The items of a world are of the kinds that the catalog gives their types, and loading can rely
on it. -/
structure KindsAgree (w : World) : Prop where
  /-- An item of a type that the catalog has is of its kind. -/
  known : ∀ id i t, w.graph.item? id = some i → w.catalog.get? i.typeId = some t → i.OfKind t
  /-- What is no container holds nothing. -/
  hollow : ∀ id i, w.graph.item? id = some i → i.isContainer = false →
    w.graph.contents (.item id) = []
  /-- Whatever rows of house tiles are loaded, a record that goes to an item of the map finds one of
  its kind. -/
  loading : ∀ rows, ∀ bound ∈ bindings { world := w } rows, ∃ i t, bound.Suits i t

/-- What is no container holds nothing. -/
theorem Sound.hollow (hw : w.Sound) {i : Item} (hi : w.graph.item? id = some i)
    (hNo : i.isContainer = false) : w.graph.contents (.item id) = [] := by
  obtain ⟨n, hn, rfl⟩ := Graph.item?_eq_some.1 hi
  rw [w.graph.contents_item hn]
  by_contra hSome
  have hYes := hw.consistent.holds id n hn hSome
  rw [hNo] at hYes
  cases hYes

/-- In a sound world the kinds agree. -/
theorem Sound.kindsAgree (hw : w.Sound) : w.KindsAgree where
  known id i t hi ht := Item.ofKind_of_sameKind (hw.typed id i hi t ht)
  hollow _ _ hi hNo := hw.hollow hi hNo
  loading rows bound hMem := (meets_bindings (s := { world := w }) rows hw bound hMem).suits

variable {c : Catalog} {b : Blueprint}

/-- **Items are of the kinds of their types**, in every world that a blueprint leads to and whatever
happens in it then: items are made, copied, built from records and given other types, known ones or
not; they decay; and house tiles are loaded. -/
theorem Reached.kinds_agree (h : Reached c b w) (events : List Event) :
    (w.proceedAll events).catalog = c ∧ (w.proceedAll events).KindsAgree := by
  obtain ⟨hSound, hCatalog⟩ := proceedAll_sound h.sound events
  exact ⟨hCatalog.trans h.catalog, hSound.kindsAgree⟩

/-- The door of the bedroom is given a type that nobody knows, and the bed of a sleeper is loaded;
then the door becomes something plain, and a second later the bed does so too. -/
def bedroomEvents : List Event :=
  [.act (.retype 1 77), .load bedArchive, .act (.retype 1 2), .elapse 1000]

/-- While its type is unknown the door is a door; in the end it is none, and the bed no bed. -/
theorem kinds_agree_bedroom :
    Reached (bedCatalog 2) bedroom (bedWorld 2)
      ∧ ((bedWorld 2).proceedAll bedroomEvents).KindsAgree
      ∧ (((bedWorld 2).proceed (.act (.retype 1 77))).graph.item? 1).map (·.isDoor) = some true
      ∧ [0, 1].map (fun id => (((bedWorld 2).proceedAll bedroomEvents).graph.item? id).map
          fun i => (i.typeId, i.variant)) = [some (2, .plain), some (2, .plain)] := by
  have hReached : Reached (bedCatalog 2) bedroom (bedWorld 2) := by
    refine .drawn ?_
    unfold bedWorld
    exact eq_ok_of_isSome (ofBlueprint (bedCatalog 2) bedroom).1 ({} : World) (by decide +kernel)
  exact ⟨hReached, (hReached.kinds_agree bedroomEvents).2, by decide +kernel, by decide +kernel⟩

end World

end Homestead
