/-
  Homestead.Proofs.World.Furnished
  ────────────────────────────────
  **EACH FIXTURE GETS THE RECORD OF ITS TYPE.**

  No two fixtures of a tile are of one type, and a record of something that
  does not move was written of one of them.  So the record goes to the
  fixture of its type, which no record has gone to before: one of a type
  that moves may lie behind the fixtures by then, but it is of another type.
  A container shows the tree of its record afterwards; a fixture without a
  record is left alone.

  Main results:
    * `Furnished` — the invariant of a row;
    * `Furnished.fixture?_eq` — which fixture a record goes to;
    * `Furnished.step`, `Furnished.placeEach` — one record, and all of a row;
    * `restoreRow_furnishes` — what a row makes of its tile.
-/
import Homestead.Proofs.Graph.Handling
import Homestead.Proofs.World.BadRecord

namespace Homestead

/-- The record of a tree has contents exactly if its root is a container. -/
theorem ItemTree.isSome_children_record (c : Catalog) (t : ItemTree) :
    (t.record c).children.isSome = t.item.isContainer := by
  obtain ⟨i, contents⟩ := t
  rw [ItemTree.record]
  show (if i.isContainer then some (ItemTree.records c contents) else none).isSome = i.isContainer
  cases i.isContainer with
  | true => rfl
  | false => rfl

namespace World

/-! ## §1. The invariant. -/

/-- Records of trees have gone to the fixtures of a tile. -/
structure Furnished (c : Catalog) (before : Graph) (fixtures : List ItemId) (done : List ItemTree)
    (s : Restoring) : Prop where
  /-- Fixtures are of the types that they had. -/
  typeId? : ∀ id ∈ fixtures, s.world.graph.typeId? id = before.typeId? id
  /-- A container whose type a tree has shows that tree, but for what is no matter of types. -/
  given : ∀ id ∈ fixtures, ∀ t ∈ done, before.typeId? id = some t.item.typeId →
    t.item.isContainer = true → ∃ u, s.world.graph.Shows id u ∧ t.Related Item.SameType u
  /-- A fixture whose type no tree has is left alone, and free. -/
  left : ∀ id ∈ fixtures, (∀ t ∈ done, before.typeId? id ≠ some t.item.typeId) →
    id ∉ s.claimed ∧ before.LeftAlone s.world.graph id

/-- Each tree that does not move was written of a fixture, and no two fixtures are of one type. -/
structure Fitting (w : World) (g : Graph) (fixtures : List ItemId) (ts : List ItemTree) :
    Prop where
  /-- No two fixtures are of one type. -/
  distinct : (fixtures.map g.typeId?).Nodup
  /-- The trees have types of fixtures, each at most once. -/
  types : ((ts.filter fun t => !w.isMoveable t).map fun t => some t.item.typeId).Sublist
    (fixtures.map g.typeId?)

section Fitting

variable {w : World} {g : Graph} {fixtures : List ItemId} {ts done rest : List ItemTree}
  {t : ItemTree}

/-- There is one fixture only of a type. -/
theorem Fitting.eq_of_typeId? (h : Fitting w g fixtures ts) {id id' : ItemId}
    (hid : id ∈ fixtures) (hid' : id' ∈ fixtures) (hSame : g.typeId? id = g.typeId? id') :
    id = id' :=
  List.inj_on_of_nodup_map h.distinct hid hid' hSame

/-- Something that does not move was written of a fixture. -/
theorem Fitting.exists_fixture (h : Fitting w g fixtures ts) (ht : t ∈ ts)
    (hStays : w.isMoveable t = false) :
    ∃ id ∈ fixtures, g.typeId? id = some t.item.typeId := by
  have hMem : some t.item.typeId
      ∈ (ts.filter fun t => !w.isMoveable t).map fun t => some t.item.typeId := by
    refine List.mem_map.2 ⟨t, List.mem_filter.2 ⟨ht, ?_⟩, rfl⟩
    rw [hStays]
    rfl
  exact List.mem_map.1 (h.types.subset hMem)

/-- Trees with roots of one type move together. -/
theorem isMoveable_of_typeId {u : ItemTree} (h : u.item.typeId = t.item.typeId) :
    w.isMoveable u = w.isMoveable t := by
  rw [isMoveable, isMoveable, h]

/-- Of two trees of one type none is something that does not move. -/
theorem Fitting.typeId_ne (h : Fitting w g fixtures (done ++ t :: rest))
    (hStays : w.isMoveable t = false) : ∀ u ∈ done, u.item.typeId ≠ t.item.typeId := by
  intro u hu hSame
  have hAlso : w.isMoveable u = false := (isMoveable_of_typeId hSame).trans hStays
  -- Both would stand among the trees that do not move, which differ in their types.
  have hNodup := h.distinct.sublist h.types
  rw [List.filter_append, List.map_append, List.nodup_append] at hNodup
  refine hNodup.2.2 (some u.item.typeId) ?_ (some t.item.typeId) ?_ (congrArg some hSame)
  · exact List.mem_map.2 ⟨u, List.mem_filter.2 ⟨hu, by rw [hAlso]; rfl⟩, rfl⟩
  · exact List.mem_map.2 ⟨t, List.mem_filter.2 ⟨List.mem_cons_self, by rw [hStays]; rfl⟩, rfl⟩

end Fitting

/-! ## §2. One record. -/

namespace Furnished

variable {w : World} {p : Position} {before : Graph} {fixtures : List ItemId}
  {moved done rest : List ItemTree} {t : ItemTree} {s s' : Restoring}

/-- **A record goes to the fixture of its type.** -/
theorem fixture?_eq (h : Furnished w.catalog before fixtures done s)
    (hReturning : Returning w p fixtures moved s)
    (hFitting : Fitting w before fixtures (done ++ t :: rest))
    (hStays : w.isMoveable t = false) {id : ItemId} (hid : id ∈ fixtures)
    (hType : before.typeId? id = some t.item.typeId) :
    s.world.fixture? p s.claimed t.item.typeId = some id := by
  have hFresh := hFitting.typeId_ne hStays
  obtain ⟨hFree, _⟩ := h.left id hid fun u hu hSame =>
    hFresh u hu (Option.some_inj.1 (hSame.symm.trans hType))
  have hMem := hReturning.mem_contents hid
  obtain ⟨i, hi, hOwn⟩ := Option.map_eq_some_iff.1 ((h.typeId? id hid).trans hType)
  -- Some item of the type is free.
  have hSome : (s.world.firstFree? p s.claimed (·.typeId == t.item.typeId)).isSome :=
    firstFree?_isSome hMem hFree hi (by simpa using hOwn)
  obtain ⟨found, hFound⟩ := Option.isSome_iff_exists.1 hSome
  obtain ⟨hThere, _, j, hj, hSame⟩ := firstFree?_eq_some hFound
  have hTypeId : j.typeId = t.item.typeId := by simpa using hSame
  -- It does not move, so it is a fixture, and there is one fixture only of the type.
  have hFixture : found ∈ fixtures := by
    by_contra hNot
    obtain ⟨ty, hGet, hMoves⟩ := hReturning.moves_of_not_mem hThere hNot hj
    rw [hTypeId] at hGet
    rw [isMoveable_iff.2 ⟨ty, hGet, hMoves⟩] at hStays
    cases hStays
  have hThis : before.typeId? found = before.typeId? id := by
    rw [← h.typeId? found hFixture, hType, Graph.typeId?, hj, Option.map_some, hTypeId]
  unfold fixture?
  rw [hFound, hFitting.eq_of_typeId? hFixture hid hThis]

/-- The record was of something that no fixture is, and all of them are left alone. -/
theorem other (h : Furnished w.catalog before fixtures done s)
    (hAlone : ∀ id ∈ fixtures, s.world.graph.LeftAlone s'.world.graph id)
    (hClaimed : s'.claimed = s.claimed)
    (hNone : ∀ id ∈ fixtures, before.typeId? id ≠ some t.item.typeId) :
    Furnished w.catalog before fixtures (done ++ [t]) s' := by
  constructor
  case typeId? =>
    intro id hid
    rw [Graph.typeId?_of_item? (hAlone id hid).item?_eq]
    exact h.typeId? id hid
  case given =>
    intro id hid u hu hType hHolds
    -- The earlier records are as before, and the last one is of no type that stands here.
    rcases List.mem_append.1 hu with hOld | hNew
    · obtain ⟨v, hShows, hRelated⟩ := h.given id hid u hOld hType hHolds
      exact ⟨v, hShows.leftAlone (hAlone id hid), hRelated⟩
    · rw [List.mem_singleton.1 hNew] at hType
      exact absurd hType (hNone id hid)
  case left =>
    intro id hid hFree
    obtain ⟨hUnclaimed, hSoFar⟩ := h.left id hid fun u hu => hFree u (List.mem_append_left _ hu)
    rw [hClaimed]
    exact ⟨hUnclaimed, hSoFar.trans (hAlone id hid)⟩

/-- The record went to the fixture of its type. -/
theorem bound (h : Furnished w.catalog before fixtures done s)
    (hReturning : Returning w p fixtures moved s) (hSound : s'.world.Sound)
    (hFitting : Fitting w before fixtures (done ++ t :: rest))
    (hStays : w.isMoveable t = false) {id : ItemId} (hid : id ∈ fixtures)
    (hType : before.typeId? id = some t.item.typeId)
    (hBound : Restoring.Bound w.catalog id t s s') :
    Furnished w.catalog before fixtures (done ++ [t]) s' := by
  have hAlone : ∀ other ∈ fixtures, other ≠ id →
      s.world.graph.LeftAlone s'.world.graph other :=
    fun other hOther hne => hBound.leftAlone hReturning.sound (hReturning.mem_contents hid)
      (hReturning.mem_contents hOther) hne
  -- A fixture of another type is another one.
  have hOther : ∀ (other : ItemId) (u : ItemTree), before.typeId? other = some u.item.typeId →
      u.item.typeId ≠ t.item.typeId → other ≠ id := by
    rintro other u hSame hne rfl
    exact hne (Option.some_inj.1 (hSame.symm.trans hType))
  constructor
  case typeId? =>
    intro other hMem
    by_cases hEq : other = id
    · -- It lies on the tile still, so there is an item, and this has the type of the tree.
      have hThere : id ∈ s'.world.graph.contents (.tile p) := by
        rw [hBound.contents hReturning.sound]
        exact hReturning.mem_contents hid
      obtain ⟨n, hn, _⟩ := hSound.consistent.linked _ _ hThere
      have hItem : s'.world.graph.item? id = some n.item := Graph.item?_eq_some.2 ⟨n, hn, rfl⟩
      rw [hEq, hType, Graph.typeId?, hItem, Option.map_some, hBound.typeId n.item hItem]
    · rw [Graph.typeId?_of_item? (hAlone other hMem hEq).item?_eq]
      exact h.typeId? other hMem
  case given =>
    intro other hMem u hu hSame hHolds
    rcases List.mem_append.1 hu with hOld | hNew
    · have hne := hOther other u hSame (hFitting.typeId_ne hStays u hOld)
      obtain ⟨v, hShows, hRelated⟩ := h.given other hMem u hOld hSame hHolds
      exact ⟨v, hShows.leftAlone (hAlone other hMem hne), hRelated⟩
    · obtain rfl := List.mem_singleton.1 hNew
      obtain rfl := hFitting.eq_of_typeId? hMem hid (hSame.trans hType.symm)
      refine hBound.tree ?_ (by rw [ItemTree.isSome_children_record]; exact hHolds)
      intro i hi
      have hOwn := (h.typeId? other hMem).trans hType
      rw [Graph.typeId?, hi, Option.map_some] at hOwn
      exact Option.some_inj.1 hOwn
  case left =>
    intro other hMem hNone
    have hne : other ≠ id := by
      rintro rfl
      exact hNone t (List.mem_append_right done List.mem_cons_self) hType
    obtain ⟨hUnclaimed, hSoFar⟩ := h.left other hMem fun u hu =>
      hNone u (List.mem_append_left _ hu)
    refine ⟨?_, hSoFar.trans (hAlone other hMem hne)⟩
    rw [hBound.claimed, List.mem_append, List.mem_singleton, not_or]
    exact ⟨hUnclaimed, hne⟩

/-- **One record more.** -/
theorem step (h : Furnished w.catalog before fixtures done s)
    (hReturning : Returning w p fixtures moved s)
    (hFitting : Fitting w before fixtures (done ++ t :: rest))
    (hReturns : t.Every (Item.Returns w.catalog)) :
    ∃ s', Restoring.place p (t.record w.catalog) s = (.ok (), s')
      ∧ Returning.Back w p fixtures moved [t] s s'
      ∧ Furnished w.catalog before fixtures (done ++ [t]) s' := by
  -- Something that does not move goes to the fixture of its type.
  have hFixture : w.isMoveable t = false → ∃ id ∈ fixtures,
      before.typeId? id = some t.item.typeId
        ∧ s.world.fixture? p s.claimed t.item.typeId = some id := by
    intro hStays
    obtain ⟨id, hid, hType⟩ := hFitting.exists_fixture
      (List.mem_append_right done List.mem_cons_self) hStays
    exact ⟨id, hid, hType, h.fixture?_eq hReturning hFitting hStays hid hType⟩
  obtain ⟨s', hPlace, hKeeps, hOutcome⟩ := hReturning.outcome hReturns (by
    intro hStays id hFound
    obtain ⟨id', hid', _, hFound'⟩ := hFixture hStays
    obtain rfl := Option.some_inj.1 (hFound.symm.trans hFound')
    exact hid')
  have hBack := hOutcome.back hReturning hKeeps
  refine ⟨s', hPlace, hBack, ?_⟩
  cases hOutcome with
  | added hMoves hAdded =>
    refine h.other ?_ hAdded.claimed ?_
    · exact fun id hid => hAdded.leftAlone hReturning.sound (hReturning.mem_contents hid)
    · -- No fixture is of a type that moves.
      intro id hid hType
      obtain ⟨i, hi, hOwn⟩ := Option.map_eq_some_iff.1 ((h.typeId? id hid).trans hType)
      obtain ⟨ty, hGet, hMoveable⟩ := isMoveable_iff.1 hMoves
      rw [hReturning.stays id hid i hi ty (by rw [hOwn]; exact hGet)] at hMoveable
      cases hMoveable
  | bound id hid hStays hFound hBound =>
    obtain ⟨id', _, hType, hFound'⟩ := hFixture hStays
    obtain rfl := Option.some_inj.1 (hFound.symm.trans hFound')
    exact h.bound hReturning (hKeeps.sound hReturning.sound) hFitting hStays hid hType hBound
  | letGo hStays hNone _ _ _ =>
    obtain ⟨_, _, _, hFound⟩ := hFixture hStays
    rw [hFound] at hNone
    cases hNone

/-! ## §3. One row. -/

/-- **All records of a row.** -/
theorem placeEach (ts : List ItemTree) (hReturns : ItemTree.EveryOf (Item.Returns w.catalog) ts) :
    ∀ {done moved : List ItemTree} {s : Restoring},
      Furnished w.catalog before fixtures done s → Returning w p fixtures moved s →
      Fitting w before fixtures (done ++ ts) →
      ∃ s', Restoring.placeEach p (ItemTree.records w.catalog ts) s = (.ok (), s')
        ∧ Returning.Back w p fixtures moved ts s s'
        ∧ Furnished w.catalog before fixtures (done ++ ts) s' := by
  induction ts with
  | nil =>
    intro done moved s h hReturning _
    refine ⟨s, rfl, .nil hReturning, ?_⟩
    rw [List.append_nil]
    exact h
  | cons t ts ih =>
    intro done moved s h hReturning hFitting
    -- The first record, with the others still to come; then it counts as done.
    obtain ⟨s₁, hPlace, hBack, hFurnished⟩ := h.step hReturning hFitting hReturns.1
    have hSplit : done ++ t :: ts = (done ++ [t]) ++ ts := by
      rw [List.append_assoc]
      rfl
    rw [hSplit] at hFitting ⊢
    obtain ⟨s₂, hEach, hRest, hAll⟩ := ih hReturns.2 hFurnished hBack.returning hFitting
    refine ⟨s₂, ?_, hBack.cons hRest, hAll⟩
    rw [ItemTree.records, Restoring.placeEach, hPlace]
    exact hEach

end Furnished

/-- The row of saved trees brings back their records one after another. -/
theorem Restoring.restoreRow_of_trees {c : Catalog} (house : UInt32) (p : Position)
    (ts : List ItemTree) (hReturns : ItemTree.EveryOf (Item.Returns c) ts)
    (hNesting : ∀ t ∈ ts, t.nesting ≤ Record.maxDepth) (hCount : ts.length < 4294967296)
    {s s' : Restoring} (hs : s.world.Sound) (hc : s.world.catalog = c)
    (hTile : (s.world.graph.tile? p).isSome)
    (hEach : placeEach p (ItemTree.records c ts) s.begun = (.ok (), s')) :
    restoreRow s { house, data := tileOctets c p ts } = s' := by
  -- The records of the trees are what is read of the row.
  obtain ⟨position, hRow⟩ := restoreRow_eq_placeAll c house p ts hCount hTile
  have hReadable := hReturns.imp fun _ _ hi => hi.storable.readable
  have hTimes := Record.times_encodeAll c ts Record.maxDepth hReadable
    (ItemTree.nestings_le_iff.2 hNesting) [] position
  rw [List.append_nil] at hTimes
  have hBegun : s.begun.world.catalog = c := hc
  have hAll := placeAll_of_times house p ts.length 0 ts.length (s := s.begun) hs
    (by rw [hBegun]; exact hTimes) hEach
  rw [Nat.zero_add] at hAll
  exact hRow.trans hAll

/-- **A row furnishes its tile**, and leaves alone what lies elsewhere. -/
theorem restoreRow_furnishes {w : World} (house : UInt32) (p : Position) (ts : List ItemTree)
    (hReturns : ItemTree.EveryOf (Item.Returns w.catalog) ts)
    (hNesting : ∀ t ∈ ts, t.nesting ≤ Record.maxDepth) (hCount : ts.length < 4294967296)
    {s : Restoring} (hs : s.world.Sound) (hc : s.world.catalog = w.catalog)
    (hTile : (s.world.graph.tile? p).isSome) (hUntouched : s.world.Untouched p)
    (hFitting : Fitting w s.world.graph (s.world.graph.contents (.tile p)) ts) :
    ∃ s', Restoring.restoreRow s { house, data := tileOctets w.catalog p ts } = s'
      ∧ Returning.Back w p (s.world.graph.contents (.tile p)) [] ts s.begun s'
      ∧ Furnished w.catalog s.world.graph (s.world.graph.contents (.tile p)) ts s' := by
  -- Before the first record all fixtures are as they are, and free.
  have hStart : Furnished w.catalog s.world.graph (s.world.graph.contents (.tile p)) []
      s.begun := by
    constructor
    case typeId? => exact fun _ _ => rfl
    case given => exact fun _ _ t ht => absurd ht List.not_mem_nil
    case left => exact fun _ _ _ => ⟨List.not_mem_nil, fun _ _ => rfl⟩
  obtain ⟨s', hEach, hBack, hFurnished⟩ :=
    hStart.placeEach ts hReturns (hUntouched.returning hs hc hTile) hFitting
  exact ⟨s', Restoring.restoreRow_of_trees house p ts hReturns hNesting hCount hs hc hTile hEach,
    hBack, hFurnished⟩

end World

end Homestead
