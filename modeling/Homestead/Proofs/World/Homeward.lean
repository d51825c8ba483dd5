/-
  Homestead.Proofs.World.Homeward
  ───────────────────────────────
  **WHICH RECORDS FIND THE WAY HOME.**

  The fixtures of a tile are altered where they stand: they get other
  attributes and other contents, and doors and beds get other types of
  doors and beds.  Then the tile is saved, and its records are brought back
  to the fixtures as the map has them.  Every record goes to the first
  fixture that no record has gone to yet and that has its type on the map,
  or else to the first door or bed.  Whether that is the fixture that the
  record was written for depends on two kinds of strangers only:

    * a fixture further back that has on the map the type that a door or a
      bed has got, which takes the record of that one away;
    * a fixture further in front that has no record, and on the map the
      type of one that has, which catches the record of that one.

  A tile without either is orderly.  There, and only there, all records
  come back to the fixtures that they were written for, and every fixture
  is what its own record makes of it.

  Main results:
    * `lot_eq_bound_iff_home` — when one record comes home;
    * `Homeward.run` — when all records of a tile do;
    * `Standing.lots_iff_orderly`, `Standing.homecoming` — a row.
-/
import Homestead.Proofs.World.Containers
import Homestead.Proofs.World.Matching
import Homestead.Proofs.World.Renewed
import Mathlib.Data.List.Find

namespace Homestead

namespace World

/-! ## §1. Altered fixtures. -/

/-- Whether what lies in a world under a number is saved if it lies on a house tile. -/
def isStored (w : World) (id : ItemId) : Bool :=
  (w.graph.tree? id).any (·.isSaved w.catalog)

/-- On a tile lie the same fixtures as before, in the same order, and of the same types, but that
doors may have got other types of doors, and beds other types of beds, that do not move. -/
structure AlteredOn (w w' : World) (p : Position) : Prop where
  /-- The fixtures are the same. -/
  contents : w'.graph.contents (.tile p) = w.graph.contents (.tile p)
  /-- They are of the same types, or doors still, or beds still. -/
  types : ∀ id ∈ w.graph.contents (.tile p), w'.graph.typeId? id = w.graph.typeId? id
    ∨ w'.graph.moves w.catalog id = false
      ∧ ∃ f : Fixture, w.graph.isOf w.catalog f id = true ∧ w'.graph.isOf w.catalog f id = true

/-- A tile is altered in what its items are, and not in which items lie there. -/
theorem alteredOn_iff {w w' : World} {p : Position} : AlteredOn w w' p
    ↔ w'.graph.contents (.tile p) = w.graph.contents (.tile p)
      ∧ ∀ id ∈ w.graph.contents (.tile p), w'.graph.typeId? id = w.graph.typeId? id
        ∨ w'.graph.moves w.catalog id = false
          ∧ ([.door, .bed] : List Fixture).any fun f =>
            w.graph.isOf w.catalog f id && w'.graph.isOf w.catalog f id := by
  -- There are two kinds of fixtures, doors and beds.
  have hEither : ∀ test : Fixture → Bool,
      ([.door, .bed] : List Fixture).any test = true ↔ ∃ f, test f = true := by
    intro test
    rw [List.any_eq_true]
    constructor
    · rintro ⟨f, _, hTest⟩
      exact ⟨f, hTest⟩
    · rintro ⟨f, hTest⟩
      refine ⟨f, ?_, hTest⟩
      cases f <;> decide
  simp only [hEither, Bool.and_eq_true]
  exact ⟨fun h => ⟨h.contents, h.types⟩, fun h => ⟨h.1, h.2⟩⟩

instance (w w' : World) (p : Position) : Decidable (AlteredOn w w' p) :=
  decidable_of_iff _ alteredOn_iff.symm

/-- The record of a fixture does not go to another one that stands behind it: the fixture has the
type that it has on the map, or the other one is not of its new type there. -/
def StaysShort (w w' : World) (id other : ItemId) : Prop :=
  w'.isStored id = true → w'.graph.typeId? id ≠ w.graph.typeId? id →
    w.graph.typeId? other ≠ w'.graph.typeId? id

/-- The record of a fixture does not stop at another one that stands before it: that one has a
record of its own, or is not of the type of the fixture on the map. -/
def GoesPast (w w' : World) (other id : ItemId) : Prop :=
  w'.isStored other = false → w'.isStored id = true →
    w.graph.typeId? other ≠ w'.graph.typeId? id

instance (w w' : World) (id other : ItemId) : Decidable (StaysShort w w' id other) :=
  inferInstanceAs (Decidable (_ → _ → _))

instance (w w' : World) (other id : ItemId) : Decidable (GoesPast w w' other id) :=
  inferInstanceAs (Decidable (_ → _ → _))

/-- Of fixtures that stand in this order none catches the record of another one. -/
def InOrder (w w' : World) (ids : List ItemId) : Prop :=
  ids.Pairwise fun id other => StaysShort w w' id other ∧ GoesPast w w' id other

/-- No fixture of a tile catches the record of another one. -/
def Orderly (w w' : World) (p : Position) : Prop :=
  InOrder w w' (w.graph.contents (.tile p))

instance (w w' : World) (p : Position) : Decidable (Orderly w w' p) :=
  inferInstanceAs (Decidable (List.Pairwise _ _))

/-- A tile that has been altered and saved, and stands as the map has it. -/
structure Standing (w w' : World) (p : Position) : Prop extends AlteredOn w w' p where
  /-- The world of the map is sound. -/
  sound : w.Sound
  /-- So is the one that was saved. -/
  sound' : w'.Sound
  /-- The catalog is the same. -/
  catalog : w'.catalog = w.catalog
  /-- The fixtures of the map do not move, and have time left. -/
  untouched : w.Untouched p
  /-- What was saved can come back. -/
  returnable : w'.Returnable p
  /-- What was altered is of known types. -/
  known : ∀ id ∈ w.graph.contents (.tile p), ∀ i, w'.graph.item? id = some i →
    ∃ t, w.catalog.get? i.typeId = some t

section Standing

variable {w w' : World} {p : Position} {id : ItemId} {t : ItemTree} (h : Standing w w' p)

include h

/-- A fixture of the map and what has become of it. -/
theorem Standing.trees (hid : id ∈ w.graph.contents (.tile p)) :
    ∃ base t, w.graph.tree? id = some base ∧ w'.graph.tree? id = some t := by
  obtain ⟨n, hn, _⟩ := h.sound.consistent.linked _ _ hid
  obtain ⟨base, hBase⟩ := h.sound.consistent.tree?_isSome (by rw [hn]; rfl)
  rw [← h.contents] at hid
  obtain ⟨n', hn', _⟩ := h.sound'.consistent.linked _ _ hid
  obtain ⟨t, ht⟩ := h.sound'.consistent.tree?_isSome (by rw [hn']; rfl)
  exact ⟨base, t, hBase, ht⟩

/-- No item stands on the tile twice. -/
theorem Standing.nodup {ids : List ItemId} (hList : w.graph.contents (.tile p) = ids) :
    ids.Nodup :=
  hList ▸ h.sound.consistent.nodup (.tile p)

/-- A fixture that has been altered does not move. -/
theorem Standing.stays (hid : id ∈ w.graph.contents (.tile p)) :
    w'.graph.moves w.catalog id = false := by
  rcases h.types id hid with hSame | ⟨hStays, _⟩
  · rw [Graph.moves_of_typeId? hSame]
    have hFixture := hid
    rw [← h.untouched.fixtures_eq] at hFixture
    simpa using (List.mem_filter.1 hFixture).2
  · exact hStays

/-- An altered fixture that is not saved is no door and no bed, and was none on the map. -/
theorem Standing.ofItem_eq_false (hid : id ∈ w.graph.contents (.tile p))
    (hNot : w'.isStored id = false) (f : Fixture) {i : Item} (hi : w.graph.item? id = some i) :
    f.ofItem i = false := by
  obtain ⟨_, t, _, ht⟩ := h.trees hid
  have hShows := h.sound'.consistent.tree?_eq_some_iff.1 ht
  obtain ⟨ty, hType⟩ := h.known id hid t.item hShows.item?_eq
  have hTyped : t.item.Typed w.catalog := h.catalog ▸ h.sound'.typed id t.item hShows.item?_eq
  -- It is no door and no bed now, so its type is of neither.
  have hNone : ∀ g : Fixture, g.ofType ty = false := by
    intro g
    rw [← g.ofItem_eq_of_typed hTyped hType]
    rw [isStored, ht, Option.any_some, ItemTree.isSaved] at hNot
    simp only [Bool.or_eq_false_iff] at hNot
    cases g with
    | door => exact hNot.1.1.2
    | bed => exact hNot.1.2
  rcases h.types id hid with hSame | ⟨_, g, _, hIs⟩
  · rw [typeId?_of_shows hShows, Graph.typeId?, hi, Option.map_some, Option.some_inj] at hSame
    have hOwn : i.Typed w.catalog := h.sound.typed id i hi
    rw [f.ofItem_eq_of_typed hOwn (hSame ▸ hType), hNone]
  · rw [Graph.isOf, typeId?_of_shows hShows, Option.any_some, Fixture.ofTypeId, hType,
      Option.any_some, hNone] at hIs
    cases hIs

/-- A fixture of a type of doors is a door on the map. -/
theorem Standing.any_ofItem {f : Fixture} (hWas : w.graph.isOf w.catalog f id = true) :
    (w.graph.item? id).any f.ofItem = true := by
  unfold Graph.isOf Graph.typeId? at hWas
  cases hi : w.graph.item? id with
  | none =>
    rw [hi] at hWas
    cases hWas
  | some i =>
    rw [hi, Option.map_some, Option.any_some] at hWas
    obtain ⟨ty, hType, hOf⟩ := (Option.any_eq_true _ _).1 hWas
    rw [Option.any_some, f.ofItem_eq_of_typed (h.sound.typed id i hi) hType, hOf]

/-- The record of a saved fixture asks for a fixture. -/
theorem Standing.moves?_record (hid : id ∈ w.graph.contents (.tile p))
    (ht : w'.graph.tree? id = some t) (hReturns : t.Every (Item.Returns w.catalog)) :
    Restoring.moves? w.catalog (t.record w.catalog) = some false := by
  have hShows := h.sound'.consistent.tree?_eq_some_iff.1 ht
  have hStays := h.stays hid
  rw [moves_of_shows hShows] at hStays
  obtain ⟨ty, hType, hRecord, hKnown⟩ := Returning.known_record hReturns
  rw [isMoveable, hType] at hStays
  rw [Restoring.moves?, if_pos hKnown, hRecord, hType, Option.map_some]
  exact congrArg some hStays

end Standing

/-! ## §2. One record. -/

namespace Restoring

/-- The first free item of a list that has a property is the one in the middle just if that has the
property, and none before it has. -/
theorem find?_eq_middle {ids : List ItemId} (rest : List ItemId) {id : ItemId}
    (test : ItemId → Bool) (hNew : id ∉ ids) :
    (ids ++ id :: rest).find? test = some id
      ↔ test id = true ∧ ∀ other ∈ ids, test other = false := by
  rw [List.find?_append]
  cases hFirst : ids.find? test with
  -- Then another item comes first, and the middle is not found.
  | some other =>
    have hMem := List.mem_of_find?_eq_some hFirst
    constructor
    · intro hEq
      obtain rfl := Option.some_inj.1 hEq
      exact absurd hMem hNew
    · rintro ⟨_, hNone⟩
      have hTest := List.find?_some hFirst
      rw [hNone other hMem] at hTest
      cases hTest
  | none =>
    have hNone : ∀ other ∈ ids, test other = false := by
      simpa using List.find?_eq_none.1 hFirst
    rw [Option.none_or, List.find?_cons]
    cases hTest : test id with
    | true => simpa using hNone
    | false =>
      simp only [Bool.false_eq_true, false_and, iff_false]
      -- What is found has the property, which the middle has not.
      intro hLater
      have hAgain := List.find?_some hLater
      rw [hTest] at hAgain
      cases hAgain

/-- A fixture is what its own record makes of it. -/
def Home (w w' : World) (g : Graph) (id : ItemId) : Prop :=
  ∃ base t u, w.graph.tree? id = some base ∧ w'.graph.tree? id = some t ∧ g.Shows id u
    ∧ base.RenewedAs w.catalog t u

/-- An item that has come home stays so while it is left alone. -/
theorem Home.leftAlone {w w' : World} {g g' : Graph} {id : ItemId} (h : Home w w' g id)
    (hAlone : g.LeftAlone g' id) : Home w w' g' id := by
  obtain ⟨base, t, u, hBase, ht, hShows, hSame⟩ := h
  exact ⟨base, t, u, hBase, ht, hShows.leftAlone hAlone, hSame⟩

/-- The records of the fixtures `done` of a tile have come home, and nothing else has happened to
the fixtures. -/
structure Homeward (w w' : World) (p : Position) (done : List ItemId) (s : Restoring) : Prop where
  /-- The world is sound. -/
  sound : s.world.Sound
  /-- The catalog is that of the map. -/
  catalog : s.world.catalog = w.catalog
  /-- On the tile lie the fixtures of the map. -/
  contents : s.world.graph.contents (.tile p) = w.graph.contents (.tile p)
  /-- Those with a record have been given away. -/
  claimed : s.claimed = done.filter w'.isStored
  /-- The others are as on the map. -/
  free : ∀ id ∈ w.graph.contents (.tile p), id ∉ s.claimed →
    w.graph.LeftAlone s.world.graph id
  /-- Those with a record are what it makes of them. -/
  home : ∀ id ∈ s.claimed, Home w w' s.world.graph id

variable {w w' : World} {p : Position} {done rest : List ItemId} {id : ItemId} {t : ItemTree}
  {s s' : Restoring}

/-- The fixtures that no record has come to: those before the next one that have none, and all from
there on. -/
theorem Homeward.firstFree?_eq (hs : Homeward w w' p done s)
    (hList : w.graph.contents (.tile p) = done ++ rest) (hNodup : (done ++ rest).Nodup)
    (property : Item → Bool) :
    s.world.firstFree? p s.claimed property
      = (done.filter (!w'.isStored ·) ++ rest).find? fun id =>
        (w.graph.item? id).any property := by
  have hFree : (done ++ rest).filter (!s.claimed.contains ·)
      = done.filter (!w'.isStored ·) ++ rest := by
    rw [List.filter_append, hs.claimed]
    congr 1
    · refine List.filter_congr fun id hid => ?_
      rw [List.contains_eq_mem]
      simp [hid]
    · rw [List.filter_eq_self]
      intro id hid
      have hNot : id ∉ done := fun hMem => (List.nodup_append.1 hNodup).2.2 id hMem id hid rfl
      simp [hNot]
  unfold World.firstFree?
  rw [hs.contents, hList, hFree]
  refine List.find?_congr fun id hid => ?_
  -- No record has come to it, so it is as on the map.
  have hThere : id ∈ (done ++ rest).filter (!s.claimed.contains ·) := hFree ▸ hid
  obtain ⟨hMem, hUnclaimed⟩ := List.mem_filter.1 hThere
  rw [(hs.free id (hList ▸ hMem) (by simpa using hUnclaimed)).item?_eq]

/-- The first of them that has a type on the map. -/
theorem Homeward.firstFree?_typeId (hs : Homeward w w' p done s)
    (hList : w.graph.contents (.tile p) = done ++ rest) (hNodup : (done ++ rest).Nodup)
    (typeId : TypeId) :
    s.world.firstFree? p s.claimed (·.typeId == typeId)
      = (done.filter (!w'.isStored ·) ++ rest).find? fun id =>
        decide (w.graph.typeId? id = some typeId) := by
  rw [hs.firstFree?_eq hList hNodup]
  refine List.find?_congr fun id _ => ?_
  rw [Bool.eq_iff_iff, Graph.typeId?]
  cases w.graph.item? id <;> simp

section Next

variable {typeId : TypeId}

/-- A fixture is not among those before it. -/
theorem not_mem_before (test : ItemId → Bool) (hNodup : (done ++ id :: rest).Nodup) :
    id ∉ done.filter (!test ·) := fun hMem =>
  (List.nodup_append.1 hNodup).2.2 id (List.mem_of_mem_filter hMem) id List.mem_cons_self rfl

/-- Where a record stops that asks for the type that the next fixture has on the map: at the first
one without a record that has it, too. -/
theorem Homeward.fixture?_of_same (h : Standing w w' p) (hs : Homeward w w' p done s)
    (hList : w.graph.contents (.tile p) = done ++ id :: rest)
    (hSame : w.graph.typeId? id = some typeId) :
    s.world.fixture? p s.claimed typeId = some id
      ↔ ∀ other ∈ done, w'.isStored other = false → w.graph.typeId? other ≠ some typeId := by
  have hNodup := h.nodup hList
  have hOfType := hs.firstFree?_typeId hList hNodup typeId
  have hNew := not_mem_before w'.isStored hNodup
  -- The fixture itself is free and of the type, so the search by the type finds one.
  have hSome : (s.world.firstFree? p s.claimed (·.typeId == typeId)).isSome := by
    rw [hOfType]
    exact List.find?_isSome.2
      ⟨id, List.mem_append_right _ List.mem_cons_self, decide_eq_true hSame⟩
  obtain ⟨found, hFound⟩ := Option.isSome_iff_exists.1 hSome
  have hFixture : s.world.fixture? p s.claimed typeId
      = s.world.firstFree? p s.claimed (·.typeId == typeId) := by
    unfold World.fixture?
    rw [hFound]
  rw [hFixture, hOfType, find?_eq_middle rest _ hNew]
  simp [hSame]

/-- A record asks for another type than the next fixture has on the map, which is a door or a bed:
it comes there only if there is nothing of that type. -/
theorem Homeward.fixture?_of_other (h : Standing w w' p) (hs : Homeward w w' p done s)
    (hList : w.graph.contents (.tile p) = done ++ id :: rest)
    (hOther : w.graph.typeId? id ≠ some typeId) {f : Fixture} {ty : ItemType}
    (hType : w.catalog.get? typeId = some ty) (hOf : f.ofType ty = true)
    (hWas : w.graph.isOf w.catalog f id = true) :
    s.world.fixture? p s.claimed typeId = some id
      ↔ (∀ other ∈ done, w'.isStored other = false → w.graph.typeId? other ≠ some typeId)
        ∧ ∀ other ∈ rest, w.graph.typeId? other ≠ some typeId := by
  have hNodup := h.nodup hList
  have hOfType := hs.firstFree?_typeId hList hNodup typeId
  have hNew := not_mem_before w'.isStored hNodup
  -- It is the first door, or bed, because those before it all have records.
  have hKind : s.world.firstFree? p s.claimed f.ofItem = some id := by
    rw [hs.firstFree?_eq hList hNodup, find?_eq_middle rest _ hNew]
    constructor
    · exact h.any_ofItem hWas
    · intro other hMem
      obtain ⟨hDone, hNot⟩ := List.mem_filter.1 hMem
      rw [Option.any_eq_false]
      intro i hi
      rw [h.ofItem_eq_false (hList ▸ List.mem_append_left _ hDone) (by simpa using hNot) f hi]
  have hNone : (s.world.firstFree? p s.claimed (·.typeId == typeId)).or (some id) = some id
      ↔ s.world.firstFree? p s.claimed (·.typeId == typeId) = none := by
    cases hFound : s.world.firstFree? p s.claimed (·.typeId == typeId) with
    | none => simp
    | some other =>
      simp only [Option.some_or, Option.some_inj, reduceCtorEq, iff_false]
      rintro rfl
      rw [hOfType] at hFound
      have hHas := List.find?_some hFound
      exact hOther (of_decide_eq_true hHas)
  rw [fixture?_of_ofType (by rw [hs.catalog]; exact hType) hOf, hKind, hNone, hOfType,
    List.find?_eq_none]
  simp [or_imp, forall_and, hOther]

end Next

/-- **When a record comes home**: just if none of the fixtures before it without a record is on the
map of the type that its own fixture has now, and none behind it is if that is another type than on
the map. -/
theorem lot_eq_bound_iff_home (h : Standing w w' p) (hs : Homeward w w' p done s)
    (hList : w.graph.contents (.tile p) = done ++ id :: rest) (ht : w'.graph.tree? id = some t)
    (hStored : t.isSaved w'.catalog = true) (hReturns : t.Every (Item.Returns w.catalog)) :
    s.lot p (t.record w.catalog) = .bound id
      ↔ (∀ other ∈ done, GoesPast w w' other id) ∧ ∀ other ∈ rest, StaysShort w w' id other := by
  have hid : id ∈ w.graph.contents (.tile p) := by
    rw [hList]
    exact List.mem_append_right done List.mem_cons_self
  have hThis : w'.isStored id = true := by rw [isStored, ht, Option.any_some, hStored]
  have hType := typeId?_of_shows (h.sound'.consistent.tree?_eq_some_iff.1 ht)
  obtain ⟨ty, hGet, hRecord, _⟩ := Returning.known_record hReturns
  have hLot : s.lot p (t.record w.catalog) = .bound id
      ↔ s.world.fixture? p s.claimed t.item.typeId = some id := by
    rw [lot_eq_bound_iff, hs.catalog, h.moves?_record hid ht hReturns, hRecord]
    exact and_iff_right rfl
  rw [hLot]
  simp only [GoesPast, StaysShort, hThis, hType, forall_const]
  -- An item of the type on the map looks for its own type, and another one for a fixture of its
  -- kind.
  by_cases hSame : w.graph.typeId? id = some t.item.typeId
  · rw [hs.fixture?_of_same h hList hSame]
    simp [hSame]
  · obtain ⟨_, f, hWas, hIs⟩ := (h.types id hid).resolve_left fun hEq => hSame (hEq ▸ hType)
    have hOf : f.ofType ty = true := by
      rwa [Graph.isOf, hType, Option.any_some, Fixture.ofTypeId, hGet, Option.any_some] at hIs
    rw [hs.fixture?_of_other h hList hSame hGet hOf hWas]
    simp [Ne.symm hSame]

/-- **A record comes home**, and the fixture is what the record makes of it. -/
theorem Homeward.step (h : Standing w w' p) (hs : Homeward w w' p done s)
    (hList : w.graph.contents (.tile p) = done ++ id :: rest) (ht : w'.graph.tree? id = some t)
    (hStored : t.isSaved w'.catalog = true) (hReturns : t.Every (Item.Returns w.catalog))
    (hLot : s.lot p (t.record w.catalog) = .bound id) :
    ∃ s', place p (t.record w.catalog) s = (.ok (), s') ∧ Homeward w w' p (done ++ [id]) s'
      ∧ ∀ (S : ItemId → Prop) (T : Position → Prop), s.world.graph.Region S →
        (∀ other ∈ w.graph.contents (.tile p), S other) →
        Graph.Confined S T s.world.graph s'.world.graph := by
  have hid : id ∈ w.graph.contents (.tile p) := by
    rw [hList]
    exact List.mem_append_right done List.mem_cons_self
  obtain ⟨base, _, hBase, _⟩ := h.trees hid
  obtain ⟨_, _, hRecord, _⟩ := Returning.known_record hReturns
  obtain ⟨hMoves, hFixture⟩ := lot_eq_bound_iff.1 hLot
  rw [hRecord] at hFixture
  obtain ⟨hHere, hFree, _⟩ := fixture?_eq_some hFixture
  -- A fixture that is free has been left alone so far.
  have hAlone := hs.free id hid hFree
  have hShows := (h.sound.consistent.tree?_eq_some_iff.1 hBase).leftAlone hAlone
  have hTicking := (h.untouched.ticking id hid).leftAlone hAlone
  obtain ⟨s', hPlace, hFixed⟩ := place_fixture_renewed hs.sound hs.catalog hReturns
    (hs.catalog ▸ hMoves) hFixture hShows hTicking
  -- Nothing else on the tile is touched by the placing.
  have hOthers : ∀ other ∈ w.graph.contents (.tile p), other ≠ id →
      s.world.graph.LeftAlone s'.world.graph other := fun other hMem hne =>
    hs.sound.consistent.leftAlone_of_confined hFixed.confined hHere (hs.contents ▸ hMem) hne
  refine ⟨s', hPlace, ?_, fun S T hRegion hAll => hFixed.confined S T hRegion (hAll id hid)⟩
  constructor
  case sound => exact hFixed.keeps.sound hs.sound
  case catalog => exact hFixed.keeps.catalog.trans hs.catalog
  case contents =>
    exact (hs.sound.consistent.contents_of_confined hFixed.confined p).trans hs.contents
  case claimed =>
    have hThis : w'.isStored id = true := by rw [isStored, ht, Option.any_some, hStored]
    rw [hFixed.claimed, hs.claimed, List.filter_append, List.filter_cons_of_pos hThis,
      List.filter_nil]
  case free =>
    intro other hMem hNot
    rw [hFixed.claimed, List.mem_append, List.mem_singleton, not_or] at hNot
    exact (hs.free other hMem hNot.1).trans (hOthers other hMem hNot.2)
  case home =>
    intro other hMem
    rw [hFixed.claimed, List.mem_append, List.mem_singleton] at hMem
    -- Fixtures that came home before are left alone; the last one shows what its record makes of
    -- it.
    rcases hMem with hOld | rfl
    · have hMem : other ∈ w.graph.contents (.tile p) := by
        rw [hs.claimed] at hOld
        rw [hList]
        exact List.mem_append_left _ (List.mem_of_mem_filter hOld)
      exact (hs.home other hOld).leftAlone (hOthers other hMem fun hEq => hFree (hEq ▸ hOld))
    · obtain ⟨u, hShown, hSame⟩ := hFixed.shows
      exact ⟨base, t, u, hBase, ht, hShown, hSame⟩

/-! ## §3. A row. -/

/-- The trees of fixtures that are saved. -/
def savedOf (w : World) (ids : List ItemId) : List ItemTree :=
  (ids.filterMap w.graph.tree?).filter (·.isSaved w.catalog)

/-- What is saved of a list is the first tree, if it is stored, and what is saved of the others. -/
theorem savedOf_cons {w : World} (ht : w.graph.tree? id = some t) (rest : List ItemId) :
    savedOf w (id :: rest)
      = if t.isSaved w.catalog then t :: savedOf w rest else savedOf w rest := by
  rw [savedOf, List.filterMap_cons_some ht, List.filter_cons]
  rfl

/-- A fixture without a record is passed over. -/
theorem Homeward.pass (hs : Homeward w w' p done s) (hNot : w'.isStored id = false) :
    Homeward w w' p (done ++ [id]) s where
  sound := hs.sound
  catalog := hs.catalog
  contents := hs.contents
  claimed := by
    rw [hs.claimed, List.filter_append, List.filter_cons_of_neg (by rw [hNot]; decide),
      List.filter_nil, List.append_nil]
  free := hs.free
  home := hs.home

/-- The fixtures `rest` of a tile are in order, and so are those before them. -/
def OrderlyAfter (w w' : World) (done rest : List ItemId) : Prop :=
  (∀ other ∈ done, ∀ id ∈ rest, GoesPast w w' other id) ∧ InOrder w w' rest

/-- An item that is not stored has no record that could go astray. -/
theorem orderlyAfter_of_not_stored (hNot : w'.isStored id = false) :
    OrderlyAfter w w' done (id :: rest) ↔ OrderlyAfter w w' (done ++ [id]) rest := by
  have hPast : ∀ other, GoesPast w w' other id := by
    intro other _ hStored
    rw [hNot] at hStored
    cases hStored
  have hShort : ∀ other, StaysShort w w' id other := by
    intro other hStored
    rw [hNot] at hStored
    cases hStored
  -- With both conditions void for the item, what is left is said of the other pairs.
  simp only [OrderlyAfter, InOrder, List.pairwise_cons, List.forall_mem_cons, List.mem_append,
    List.mem_singleton, or_imp, forall_and, forall_eq, hPast, hShort]
  tauto

/-- The record of an item that is stored stops at none of those before it, and goes to none of those
behind. -/
theorem orderlyAfter_of_stored (hStored : w'.isStored id = true) :
    OrderlyAfter w w' done (id :: rest)
      ↔ ((∀ other ∈ done, GoesPast w w' other id) ∧ ∀ other ∈ rest, StaysShort w w' id other)
        ∧ OrderlyAfter w w' (done ++ [id]) rest := by
  have hPast : ∀ other, GoesPast w w' id other := by
    intro other hNot
    rw [hStored] at hNot
    cases hNot
  simp only [OrderlyAfter, InOrder, List.pairwise_cons, List.forall_mem_cons, List.mem_append,
    List.mem_singleton, or_imp, forall_and, forall_eq, hPast]
  tauto

/-- The records of the fixtures `rest` have been brought home. -/
structure BroughtHome (w w' : World) (p : Position) (done rest : List ItemId) (s s' : Restoring) :
    Prop where
  /-- All of them have been placed. -/
  placed : placeEach p (ItemTree.records w.catalog (savedOf w' rest)) s = (.ok (), s')
  /-- They have come home. -/
  homeward : Homeward w w' p (done ++ rest) s'
  /-- What does not lie in fixtures of the tile is as before. -/
  confined : ∀ (S : ItemId → Prop) (T : Position → Prop), s.world.graph.Region S →
    (∀ other ∈ w.graph.contents (.tile p), S other) →
    Graph.Confined S T s.world.graph s'.world.graph

/-- The next fixture has no record. -/
theorem BroughtHome.pass {s' : Restoring} (hTrees : savedOf w' (id :: rest) = savedOf w' rest)
    (h : BroughtHome w w' p (done ++ [id]) rest s s') :
    BroughtHome w w' p done (id :: rest) s s' where
  placed := by
    rw [hTrees]
    exact h.placed
  homeward := by
    have hHere := h.homeward
    rwa [List.append_assoc] at hHere
  confined := h.confined

/-- The record of the next fixture comes home, and then those of the others. -/
theorem BroughtHome.cons {s₁ s' : Restoring} (hTrees : savedOf w' (id :: rest) = t :: savedOf w' rest)
    (hPlace : place p (t.record w.catalog) s = (.ok (), s₁))
    (hConfined : ∀ (S : ItemId → Prop) (T : Position → Prop), s.world.graph.Region S →
      (∀ other ∈ w.graph.contents (.tile p), S other) →
      Graph.Confined S T s.world.graph s₁.world.graph)
    (h : BroughtHome w w' p (done ++ [id]) rest s₁ s') :
    BroughtHome w w' p done (id :: rest) s s' where
  placed := by
    rw [hTrees, ItemTree.records, placeEach, hPlace]
    exact h.placed
  homeward := by
    have hHere := h.homeward
    rwa [List.append_assoc] at hHere
  confined S T hRegion hAll := by
    have hFirst := hConfined S T hRegion hAll
    exact hFirst.trans (h.confined S T hFirst.region hAll)

/-- **All records of a tile come home just if no fixture catches the record of another one**, and
then every fixture is what its record makes of it. -/
theorem Homeward.run (h : Standing w w' p) (rest : List ItemId) :
    ∀ {done : List ItemId} {s : Restoring}, w.graph.contents (.tile p) = done ++ rest →
      Homeward w w' p done s →
      ItemTree.EveryOf (Item.Returns w.catalog) (savedOf w' rest) →
      (lots p (ItemTree.records w.catalog (savedOf w' rest)) s
          = (rest.filter w'.isStored).map Lot.bound ↔ OrderlyAfter w w' done rest)
      ∧ (OrderlyAfter w w' done rest → ∃ s', BroughtHome w w' p done rest s s') := by
  induction rest with
  | nil =>
    intro done s _ hs _
    have hNone : OrderlyAfter w w' done [] :=
      ⟨fun _ _ _ hNone => absurd hNone List.not_mem_nil, .nil⟩
    refine ⟨⟨fun _ => hNone, fun _ => rfl⟩, fun _ => ⟨s, rfl, ?_, ?_⟩⟩
    · rw [List.append_nil]
      exact hs
    · exact fun S T hRegion _ => .refl hRegion T
  | cons id rest ih =>
    intro done s hList hs hReturns
    have hSplit : w.graph.contents (.tile p) = (done ++ [id]) ++ rest := by
      rw [hList, List.append_assoc]
      rfl
    have hid : id ∈ w.graph.contents (.tile p) := by
      rw [hList]
      exact List.mem_append_right done List.mem_cons_self
    obtain ⟨_, t, _, ht⟩ := h.trees hid
    have hStored : w'.isStored id = t.isSaved w'.catalog := by
      rw [isStored, ht, Option.any_some]
    have hTrees := savedOf_cons ht rest
    rw [List.filter_cons, hStored]
    cases hSaved : t.isSaved w'.catalog with
    | false =>
      -- Nothing comes to the next fixture, and it stays among those that a record may stop at.
      rw [hSaved] at hTrees hStored
      rw [hTrees] at hReturns ⊢
      obtain ⟨hIff, hBring⟩ := ih hSplit (hs.pass hStored) hReturns
      rw [orderlyAfter_of_not_stored hStored]
      refine ⟨hIff, fun hOrder => ?_⟩
      obtain ⟨s', hBrought⟩ := hBring hOrder
      exact ⟨s', hBrought.pass hTrees⟩
    | true =>
      rw [hSaved] at hTrees hStored
      have hTrees' : savedOf w' (id :: rest) = t :: savedOf w' rest := hTrees
      rw [hTrees'] at hReturns ⊢
      have hLot := lot_eq_bound_iff_home h hs hList ht hSaved hReturns.1
      rw [orderlyAfter_of_stored hStored, ← hLot, ItemTree.records, lots, if_pos rfl, List.map_cons,
        List.cons.injEq]
      -- The others are asked only if this record comes home: else the run is not the orderly one.
      constructor
      · refine and_congr_right fun hHome => ?_
        obtain ⟨s₁, hPlace, hThen, _⟩ := hs.step h hList ht hSaved hReturns.1 hHome
        rw [hPlace]
        exact (ih hSplit hThen hReturns.2).1
      · rintro ⟨hHome, hOrder⟩
        obtain ⟨s₁, hPlace, hThen, hConfined⟩ := hs.step h hList ht hSaved hReturns.1 hHome
        obtain ⟨s', hBrought⟩ := (ih hSplit hThen hReturns.2).2 hOrder
        exact ⟨s', .cons hTrees' hPlace hConfined hBrought⟩

/-- Before the first record all fixtures are as on the map. -/
theorem homeward_begun (w' : World) (hs : s.world.Sound) (hc : s.world.catalog = w.catalog)
    (hSame : w.graph.SameTile s.world.graph p) : Homeward w w' p [] s.begun where
  sound := hs
  catalog := hc
  contents := hSame.contents
  claimed := rfl
  free id hid _ := hSame.leftAlone id hid
  home _ hNone := absurd hNone List.not_mem_nil

end Restoring

variable {w w' : World} {p : Position} {s : Restoring}

/-- What is saved of the items that stand on the tile is what is saved of the tile. -/
theorem Standing.savedOf_eq (h : Standing w w' p) :
    Restoring.savedOf w' (w.graph.contents (.tile p)) = w'.savedTrees p := by
  rw [savedTrees_eq, treesOn, h.contents]
  rfl

/-- **When all records of a row come home.** -/
theorem Standing.lots_iff_orderly (h : Standing w w' p) (hs : s.world.Sound)
    (hc : s.world.catalog = w.catalog) (hSame : w.graph.SameTile s.world.graph p) :
    Restoring.lots p (ItemTree.records w.catalog (w'.savedTrees p)) s.begun
        = ((w.graph.contents (.tile p)).filter w'.isStored).map Lot.bound
      ↔ Orderly w w' p := by
  have hRun := Restoring.Homeward.run h _ (List.nil_append _).symm
    (Restoring.homeward_begun w' hs hc hSame)
    (by rw [h.savedOf_eq, ← h.catalog]; exact h.returnable.returns)
  rw [h.savedOf_eq] at hRun
  rw [hRun.1]
  exact ⟨fun hOrder => hOrder.2, fun hOrder =>
    ⟨fun _ hNone => absurd hNone List.not_mem_nil, hOrder⟩⟩

/-- The fixtures of a tile are what their records make of them, or as on the map if they have no
record. -/
structure Returned (w w' : World) (p : Position) (g : Graph) : Prop where
  /-- The fixtures lie on the tile as before. -/
  contents : g.contents (.tile p) = w.graph.contents (.tile p)
  /-- Those with a record. -/
  home : ∀ id ∈ w.graph.contents (.tile p), w'.isStored id = true → Restoring.Home w w' g id
  /-- Those without. -/
  left : ∀ id ∈ w.graph.contents (.tile p), w'.isStored id = false → w.graph.LeftAlone g id

/-- What is done elsewhere does not count. -/
theorem Returned.of_sameTile {g g' : Graph} (h : Returned w w' p g) (hSame : g.SameTile g' p) :
    Returned w w' p g' where
  contents := hSame.contents.trans h.contents
  home id hid hStored :=
    (h.home id hid hStored).leftAlone (hSame.leftAlone id (by rw [h.contents]; exact hid))
  left id hid hNot :=
    (h.left id hid hNot).trans (hSame.leftAlone id (by rw [h.contents]; exact hid))

/-- **A row for an orderly tile brings its fixtures back.** -/
theorem Standing.homecoming (h : Standing w w' p) (hOrder : Orderly w w' p) (house : UInt32)
    (hs : s.world.Sound) (hc : s.world.catalog = w.catalog)
    (hTile : (s.world.graph.tile? p).isSome) (hSame : w.graph.SameTile s.world.graph p) :
    Returned w w' p (Restoring.restoreRow s
      { house, data := tileOctets w'.catalog p (w'.savedTrees p) }).world.graph := by
  have hRun := Restoring.Homeward.run h _ (List.nil_append _).symm
    (Restoring.homeward_begun w' hs hc hSame)
    (by rw [h.savedOf_eq, ← h.catalog]; exact h.returnable.returns)
  -- On an orderly tile every record comes home, from the first one on.
  obtain ⟨s', hBrought⟩ := hRun.2 ⟨fun _ hNone => absurd hNone List.not_mem_nil, hOrder⟩
  have hPlaced := hBrought.placed
  rw [h.savedOf_eq, ← h.catalog] at hPlaced
  rw [Restoring.restoreRow_of_trees house p (w'.savedTrees p) h.returnable.returns
    h.returnable.shallow h.returnable.counted hs (hc.trans h.catalog.symm) hTile hPlaced]
  have hHome := hBrought.homeward
  rw [List.nil_append] at hHome
  constructor
  case contents => exact hHome.contents
  case home =>
    intro id hid hStored
    refine hHome.home id ?_
    rw [hHome.claimed]
    exact List.mem_filter.2 ⟨hid, hStored⟩
  case left =>
    intro id hid hNot
    refine hHome.free id hid ?_
    rw [hHome.claimed]
    intro hMem
    rw [(List.mem_filter.1 hMem).2] at hNot
    cases hNot

end World

end Homestead
