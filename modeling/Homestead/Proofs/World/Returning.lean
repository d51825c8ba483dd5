/-
  Homestead.Proofs.World.Returning
  ────────────────────────────────
  **ROWS BRING BACK WHAT MOVES.**

  Before a row is read there lie on its tile the items of the map, which do
  not move.  While it is read they stay in front, in their order; behind
  them lie the items that have come back, in the order of their records.
  A record of something that does not move goes to an item of the map, and
  never to one that has come back: by its type, or as a door or a bed,
  neither of which moves.  The other tiles stay as they are.

  Main results:
    * `Returning` — the invariant of a row;
    * `Returning.outcome`, `Returning.Outcome.back` — one record keeps it;
    * `Returning.placeAll` — all records of a row keep it;
    * `restoreRow_returns` — what a row brings back.
-/
import Homestead.Proofs.Blueprint.Drawn
import Homestead.Proofs.World.Return

namespace Homestead

/-- Doors and beds do not move. -/
def Catalog.Settled (c : Catalog) : Prop :=
  ∀ id t, c.get? id = some t → t.moveable = true → t.isDoor = false ∧ t.isBed = false

/-- A container is no door and no bed. -/
theorem Variant.plain_of_isContainer {v : Variant} (h : v.isContainer = true) :
    v.isDoor = false ∧ v.isBed = false := by
  cases v with
  | container _ => exact ⟨rfl, rfl⟩
  | depot _ _ => exact ⟨rfl, rfl⟩
  | _ => cases h

namespace Item

variable {c : Catalog} {i : Item} {t : ItemType}

/-- An item of the right kind is a door if its type is one. -/
theorem Typed.isDoor_eq (h : i.Typed c) (hType : c.get? i.typeId = some t) :
    i.isDoor = t.isDoor := by
  have hNew : t.variant.isDoor = t.isDoor := by
    unfold ItemType.variant ItemType.isDoor
    cases t.group <;> rfl
  exact (Variant.isDoor_eq_of_sameKind (h t hType)).trans hNew

/-- An item of the right kind is a bed if its type is one. -/
theorem Typed.isBed_eq (h : i.Typed c) (hType : c.get? i.typeId = some t) :
    i.isBed = t.isBed := by
  have hNew : t.variant.isBed = t.isBed := by
    unfold ItemType.variant ItemType.isBed
    cases t.group <;> rfl
  exact (Variant.isBed_eq_of_sameKind (h t hType)).trans hNew

end Item

namespace World

/-! ## §1. Frames. -/

/-- What moves is told by the catalog. -/
theorem isMoveable_eq {w w' : World} (h : w'.catalog = w.catalog) :
    w'.isMoveable = w.isMoveable := by
  funext t
  rw [isMoveable, isMoveable, h]

/-- The items of the tile do not move, and have time left with all that they hold. -/
structure Untouched (w : World) (p : Position) : Prop where
  /-- They do not move. -/
  stays : ∀ id ∈ w.graph.contents (.tile p), ∀ i, w.graph.item? id = some i → i.Stays w.catalog
  /-- They have time left. -/
  ticking : ∀ id ∈ w.graph.contents (.tile p), w.graph.AllWithin (Item.Ticking w.catalog) id

/-! ## §2. One record. -/

/-- A tree moves if its root is of a known type that moves. -/
theorem isMoveable_iff {w : World} {t : ItemTree} :
    w.isMoveable t = true ↔ ∃ ty, w.catalog.get? t.item.typeId = some ty ∧ ty.moveable = true := by
  unfold isMoveable
  cases w.catalog.get? t.item.typeId with
  | none => simp
  | some ty => simp

/-- What comes back of something that moves, moves. -/
theorem isMoveable_of_cameBack {w : World} {c : Catalog} {ts us : List ItemTree}
    (h : ItemTree.RelatedAll (Item.CameBack c) ts us) (hMoves : ∀ t ∈ ts, w.isMoveable t = true) :
    ∀ u ∈ us, w.isMoveable u = true := by
  induction ts generalizing us with
  | nil =>
    cases us with
    | nil => exact fun u hu => absurd hu List.not_mem_nil
    | cons u us => exact h.elim
  | cons t ts ih =>
    cases us with
    | nil => exact h.elim
    | cons u us =>
      obtain ⟨hFirst, hRest⟩ := List.forall_mem_cons.1 hMoves
      refine List.forall_mem_cons.2 ⟨?_, ih h.2 hRest⟩
      -- To move or not is a matter of the type, which comes back.
      have hType : u.item.typeId = t.item.typeId := by
        cases t
        cases u
        obtain ⟨_, _, hRestored⟩ := h.1.1
        exact hRestored.typeId
      rw [isMoveable, hType]
      exact hFirst

/-- A row is being restored to its tile: in front lie the items of the map, behind them what has
come back. -/
structure Returning (w : World) (p : Position) (fixtures : List ItemId) (moved : List ItemTree)
    (s : Restoring) : Prop where
  /-- The world is sound. -/
  sound : s.world.Sound
  /-- The catalog is the one that was saved under. -/
  catalog : s.world.catalog = w.catalog
  /-- The tile is there. -/
  tile : (s.world.graph.tile? p).isSome
  /-- The items of the map do not move. -/
  stays : ∀ id ∈ fixtures, ∀ i, s.world.graph.item? id = some i → i.Stays w.catalog
  /-- Those that no record has gone to have time left. -/
  ticking : ∀ id ∈ fixtures, id ∉ s.claimed →
    s.world.graph.AllWithin (Item.Ticking w.catalog) id
  /-- Behind them lies what has come back. -/
  back : ∃ ids us, s.world.graph.contents (.tile p) = fixtures ++ ids
    ∧ s.world.graph.ShowsAll ids us ∧ ItemTree.RelatedAll (Item.CameBack w.catalog) moved us
  /-- What has come back moves. -/
  moves : ∀ t ∈ moved, w.isMoveable t = true

namespace Returning

variable {w : World} {p : Position} {fixtures : List ItemId} {moved : List ItemTree}
  {s s' : Restoring}

/-- The fixtures lie on the tile while the items come back. -/
theorem mem_contents (h : Returning w p fixtures moved s) {id : ItemId} (hid : id ∈ fixtures) :
    id ∈ s.world.graph.contents (.tile p) := by
  obtain ⟨ids, _, hContents, _⟩ := h.back
  rw [hContents]
  exact List.mem_append_left ids hid

/-- Behind the items of the map there lies nothing but what moves. -/
theorem moves_of_not_mem (h : Returning w p fixtures moved s) {id : ItemId}
    (hMem : id ∈ s.world.graph.contents (.tile p)) (hNot : id ∉ fixtures) {i : Item}
    (hi : s.world.graph.item? id = some i) :
    ∃ ty, w.catalog.get? i.typeId = some ty ∧ ty.moveable = true := by
  obtain ⟨ids, us, hContents, hShows, hRelated⟩ := h.back
  rw [hContents] at hMem
  have hBack := (List.mem_append.1 hMem).resolve_left hNot
  obtain ⟨u, hu, hShown⟩ := hShows.exists_of_mem hBack
  have hMoves := isMoveable_iff.1 (isMoveable_of_cameBack hRelated h.moves u hu)
  -- The tree that the number shows has the item in its root.
  have hItem : u.item = i := Option.some_inj.1 (hShown.item?_eq.symm.trans hi)
  rwa [hItem] at hMoves

/-- **A record of something that does not move goes to an item of the map.** -/
theorem mem_fixtures (h : Returning w p fixtures moved s) (hSettled : w.catalog.Settled)
    {t : ItemTree} (hStays : w.isMoveable t = false) {id : ItemId}
    (hFound : s.world.fixture? p s.claimed t.item.typeId = some id) : id ∈ fixtures := by
  obtain ⟨hMem, _, i, hi, hBound⟩ := fixture?_eq_some hFound
  by_contra hNot
  -- What has come back has a type that moves, and is no door or bed.
  obtain ⟨ty, hType, hMoves⟩ := h.moves_of_not_mem hMem hNot hi
  have hTyped := h.sound.typed id i hi
  rw [h.catalog] at hTyped hBound
  rcases hBound with hSame | ⟨_, _, ⟨_, hDoor⟩ | ⟨_, hBed⟩⟩
  · rw [hSame] at hType
    rw [isMoveable_iff.2 ⟨ty, hType, hMoves⟩] at hStays
    cases hStays
  · rw [hTyped.isDoor_eq hType, (hSettled _ _ hType hMoves).1] at hDoor
    cases hDoor
  · rw [hTyped.isBed_eq hType, (hSettled _ _ hType hMoves).2] at hBed
    cases hBed

/-- Something that moves has come back. -/
theorem added (h : Returning w p fixtures moved s) {t : ItemTree} (hKeeps : Keeps s.world s'.world)
    (hAdded : Restoring.Added w.catalog p t s s') (hMoves : w.isMoveable t = true) :
    Returning w p fixtures (moved ++ [t]) s' := by
  obtain ⟨ids, us, hContents, hShows, hRelated⟩ := h.back
  obtain ⟨id, u, hLast, hShown, hBack⟩ := hAdded.last
  -- All that lay on the tile is as it was.
  have hAlone : ∀ other ∈ fixtures ++ ids, s.world.graph.LeftAlone s'.world.graph other :=
    fun other hOther => hAdded.leftAlone h.sound (hContents ▸ hOther)
  constructor
  case sound => exact hKeeps.sound h.sound
  case catalog => exact hKeeps.catalog.trans h.catalog
  case tile => exact (hKeeps.tiles p).trans h.tile
  case stays =>
    intro other hOther i hi
    rw [(hAlone other (List.mem_append_left ids hOther)).item?_eq] at hi
    exact h.stays other hOther i hi
  case ticking =>
    intro other hOther hFree
    rw [hAdded.claimed] at hFree
    exact (h.ticking other hOther hFree).leftAlone (hAlone other (List.mem_append_left ids hOther))
  case back =>
    refine ⟨ids ++ [id], us ++ [u], ?_, ?_, ?_⟩
    · rw [hLast, hContents, List.append_assoc]
    · have hStill : s'.world.graph.ShowsAll ids us :=
        hShows.leftAlone fun other hOther => hAlone other (List.mem_append_right fixtures hOther)
      exact Graph.showsAll_append hStill ⟨hShown, trivial⟩
    · exact ItemTree.relatedAll_append hRelated ⟨hBack, trivial⟩
  case moves =>
    intro t' ht'
    rcases List.mem_append.1 ht' with hOld | hNew
    · exact h.moves t' hOld
    · rw [List.mem_singleton.1 hNew]
      exact hMoves

/-- An item of the map has been given what a record says. -/
theorem bound (h : Returning w p fixtures moved s) {t : ItemTree} (hKeeps : Keeps s.world s'.world)
    {id : ItemId} (hid : id ∈ fixtures) (hBound : Restoring.Bound w.catalog id t s s')
    (hStays : w.isMoveable t = false) : Returning w p fixtures moved s' := by
  obtain ⟨ids, us, hContents, hShows, hRelated⟩ := h.back
  have hOnTile := h.mem_contents hid
  -- All that lies on the tile is as it was but for the one item.
  have hAlone : ∀ other ∈ fixtures ++ ids, other ≠ id →
      s.world.graph.LeftAlone s'.world.graph other :=
    fun other hOther hne => hBound.leftAlone h.sound hOnTile (hContents ▸ hOther) hne
  constructor
  case sound => exact hKeeps.sound h.sound
  case catalog => exact hKeeps.catalog.trans h.catalog
  case tile => exact (hKeeps.tiles p).trans h.tile
  case stays =>
    intro other hOther i hi
    by_cases hEq : other = id
    · intro ty hType
      rw [hBound.typeId i (hEq ▸ hi)] at hType
      by_contra hMoves
      rw [isMoveable_iff.2 ⟨ty, hType, by simpa using hMoves⟩] at hStays
      cases hStays
    · rw [(hAlone other (List.mem_append_left ids hOther) hEq).item?_eq] at hi
      exact h.stays other hOther i hi
  case ticking =>
    intro other hOther hFree
    rw [hBound.claimed, List.mem_append, not_or, List.mem_singleton] at hFree
    exact (h.ticking other hOther hFree.1).leftAlone
      (hAlone other (List.mem_append_left ids hOther) hFree.2)
  case back =>
    refine ⟨ids, us, ?_, ?_, hRelated⟩
    · rw [hBound.contents h.sound, hContents]
    · refine hShows.leftAlone ?_
      intro other hOther
      refine hAlone other (List.mem_append_right fixtures hOther) ?_
      -- Nothing stands twice in the list of the tile.
      rintro rfl
      have hNodup := h.sound.consistent.nodup (.tile p)
      rw [hContents, List.nodup_append] at hNodup
      exact hNodup.2.2 other hid other hOther rfl
  case moves => exact h.moves

/-- Nothing has happened to the graph. -/
theorem of_graph (h : Returning w p fixtures moved s) (hGraph : s'.world.graph = s.world.graph)
    (hCatalog : s'.world.catalog = s.world.catalog) (hClaimed : s'.claimed = s.claimed) :
    Returning w p fixtures moved s' where
  sound := (keeps_of_graph hCatalog hGraph).sound h.sound
  catalog := hCatalog.trans h.catalog
  tile := hGraph ▸ h.tile
  stays := hGraph ▸ h.stays
  ticking := hClaimed ▸ hGraph ▸ h.ticking
  back := hGraph ▸ h.back
  moves := h.moves

/-- The record of a tree that comes back is of a type that is known. -/
theorem known_record {t : ItemTree} (hReturns : t.Every (Item.Returns w.catalog)) :
    ∃ ty, w.catalog.get? t.item.typeId = some ty
      ∧ (t.record w.catalog).typeId = t.item.typeId ∧ (t.record w.catalog).known = true := by
  cases t with
  | node i contents =>
    obtain ⟨ty, hUsable, _⟩ := hReturns.1.storable.typed
    refine ⟨ty, Catalog.get?_of_usable? hUsable, rfl, ?_⟩
    rw [ItemTree.record, Record.known, hUsable]
    rfl

/-- The records of some trees have been put back on a tile. -/
structure Back (w : World) (p : Position) (fixtures : List ItemId) (moved ts : List ItemTree)
    (s s' : Restoring) : Prop where
  /-- Those that move have come back behind the others. -/
  returning : Returning w p fixtures (moved ++ ts.filter w.isMoveable) s'
  /-- What lies elsewhere has been left alone. -/
  confined : ∀ S : ItemId → Prop, s.world.graph.Region S → (∀ id ∈ fixtures, S id) →
    Graph.Confined S (· = p) s.world.graph s'.world.graph

/-- Without trees nothing comes back. -/
theorem Back.nil (h : Returning w p fixtures moved s) : Back w p fixtures moved [] s s where
  returning := by rwa [List.filter_nil, List.append_nil]
  confined _ hRegion _ := .refl hRegion _

/-- The first tree comes back, and then the others. -/
theorem Back.cons {s'' : Restoring} {t : ItemTree} {ts : List ItemTree}
    (h : Back w p fixtures moved [t] s s')
    (h' : Back w p fixtures (moved ++ [t].filter w.isMoveable) ts s' s'') :
    Back w p fixtures moved (t :: ts) s s'' where
  returning := by
    -- What has come back of the first tree goes in front of what comes back of the others.
    have hSplit : (t :: ts).filter w.isMoveable
        = [t].filter w.isMoveable ++ ts.filter w.isMoveable := by
      rw [← List.filter_append]
      rfl
    rw [hSplit, ← List.append_assoc]
    exact h'.returning
  confined S hRegion hAll := by
    have hHere := h.confined S hRegion hAll
    exact hHere.trans (h'.confined S hHere.region hAll)

/-- What becomes of the record of a tree. -/
inductive Outcome (w : World) (p : Position) (fixtures : List ItemId) (t : ItemTree)
    (s s' : Restoring) : Prop where
  /-- Something that moves is put behind the others. -/
  | added (hMoves : w.isMoveable t = true) (hAdded : Restoring.Added w.catalog p t s s')
  /-- Something that does not move goes to an item of the map. -/
  | bound (id : ItemId) (hid : id ∈ fixtures) (hStays : w.isMoveable t = false)
    (hFound : s.world.fixture? p s.claimed t.item.typeId = some id)
    (hBound : Restoring.Bound w.catalog id t s s')
  /-- It is let go if there is none. -/
  | letGo (hStays : w.isMoveable t = false)
    (hNone : s.world.fixture? p s.claimed t.item.typeId = none)
    (hGraph : s'.world.graph = s.world.graph) (hCatalog : s'.world.catalog = s.world.catalog)
    (hClaimed : s'.claimed = s.claimed)

/-- Whether the record of a tree that comes back is put behind the others. -/
theorem moves?_record (h : Returning w p fixtures moved s) {t : ItemTree}
    (hReturns : t.Every (Item.Returns w.catalog)) :
    Restoring.moves? s.world.catalog (t.record w.catalog) = some (w.isMoveable t) := by
  obtain ⟨ty, hType, hRecord, hKnown⟩ := known_record hReturns
  unfold Restoring.moves? isMoveable
  rw [if_pos hKnown, hRecord, h.catalog, hType]
  rfl

/-- The record of something that does not move goes to an item of the map, or is let go. -/
theorem outcome_of_stays (h : Returning w p fixtures moved s) {t : ItemTree}
    (hReturns : t.Every (Item.Returns w.catalog))
    (hFits : (t.record w.catalog).Fits w.catalog) (hStays : w.isMoveable t = false)
    (hFixture : ∀ id, s.world.fixture? p s.claimed t.item.typeId = some id → id ∈ fixtures)
    (hPlace : Restoring.place p (t.record w.catalog) s = (.ok (), s')) :
    Outcome w p fixtures t s s' := by
  obtain ⟨_, _, hRecord, hKnown⟩ := known_record hReturns
  have hMoves := h.moves?_record hReturns
  rw [hStays] at hMoves
  cases hFound : s.world.fixture? p s.claimed t.item.typeId with
  | none =>
    rw [Restoring.place_of_no_fixture hMoves (by rw [hRecord]; exact hFound)] at hPlace
    obtain ⟨hGraph, hCatalog, hClaimed⟩ := Restoring.graph_throwAway (t.record w.catalog) s
    rw [hPlace] at hGraph hCatalog hClaimed
    exact .letGo hStays hFound hGraph hCatalog hClaimed
  | some id =>
    rw [Restoring.place_of_fixture hMoves (by rw [hRecord]; exact hFound)] at hPlace
    have hid := hFixture id hFound
    obtain ⟨_, hFree, i, hi, hBound⟩ := fixture?_eq_some hFound
    obtain ⟨n, hn, rfl⟩ := Graph.item?_eq_some.1 hi
    -- A record with contents goes to something that holds contents.
    have hHolds : (t.record w.catalog).children.isSome → n.item.isContainer = true := by
      intro hChildren
      refine Restoring.isContainer_of_fixture? h.sound (r := t.record w.catalog) ?_ hKnown
        hChildren hi ?_
      · rw [h.catalog]
        exact hFits
      · rw [hRecord]
        exact hBound
    obtain ⟨s'', hBind, hGiven⟩ := Restoring.bindFixture_returns h.sound h.catalog hReturns hFits
      hn hHolds (h.ticking id hid hFree)
    obtain rfl : s'' = s' := congrArg Prod.snd (hBind.symm.trans hPlace)
    exact .bound id hid hStays hFound hGiven

/-- **What becomes of a record**, if one of something that does not move goes to an item of the
map. -/
theorem outcome (h : Returning w p fixtures moved s) {t : ItemTree}
    (hReturns : t.Every (Item.Returns w.catalog))
    (hFixture : w.isMoveable t = false → ∀ id,
      s.world.fixture? p s.claimed t.item.typeId = some id → id ∈ fixtures) :
    ∃ s', Restoring.place p (t.record w.catalog) s = (.ok (), s') ∧ Keeps s.world s'.world
      ∧ Outcome w p fixtures t s s' := by
  -- Putting back never fails; what remains is to say what it has done.
  have hFits := t.record_fits (hReturns.imp fun _ _ hi => hi.storable.readable)
  obtain ⟨s', hPlace, hPlaced⟩ := Restoring.place_of_fits (s := s) (p := p)
    (r := t.record w.catalog) h.sound h.tile (by rw [h.catalog]; exact hFits)
  refine ⟨s', hPlace, hPlaced.keeps, ?_⟩
  cases hStays : w.isMoveable t with
  | true =>
    have hMoves := h.moves?_record hReturns
    rw [hStays] at hMoves
    rw [Restoring.place_of_moves hMoves] at hPlace
    obtain ⟨s'', hPut, hAdded⟩ :=
      Restoring.placeMoveable_returns h.sound h.catalog h.tile hReturns
    obtain rfl : s'' = s' := congrArg Prod.snd (hPut.symm.trans hPlace)
    exact .added hStays hAdded
  | false => exact h.outcome_of_stays hReturns hFits hStays (hFixture hStays) hPlace

/-- **Whatever becomes of a record, the row goes on**: behind the others there lies one more if it
is of something that moves. -/
theorem Outcome.back {t : ItemTree} (hOutcome : Outcome w p fixtures t s s')
    (h : Returning w p fixtures moved s) (hKeeps : Keeps s.world s'.world) :
    Back w p fixtures moved [t] s s' := by
  have hNone : w.isMoveable t = false → moved ++ [t].filter w.isMoveable = moved := by
    intro hStays
    rw [List.filter_cons_of_neg (by rw [hStays]; exact Bool.false_ne_true), List.filter_nil,
      List.append_nil]
  -- Only what moves comes to lie behind the others; a fixture is bound where it stands.
  cases hOutcome with
  | added hMoves hAdded =>
    constructor
    case returning =>
      rw [List.filter_cons_of_pos hMoves, List.filter_nil]
      exact h.added hKeeps hAdded hMoves
    case confined =>
      intro S hRegion _
      exact hAdded.confined S hRegion
  | bound id hid hStays hFound hBound =>
    constructor
    case returning =>
      rw [hNone hStays]
      exact h.bound hKeeps hid hBound hStays
    case confined =>
      intro S hRegion hAll
      exact hBound.confined S (· = p) hRegion (hAll id hid)
  | letGo hStays hFree hGraph hCatalog hClaimed =>
    constructor
    case returning =>
      rw [hNone hStays]
      exact h.of_graph hGraph hCatalog hClaimed
    case confined =>
      intro S hRegion _
      rw [hGraph]
      exact .refl hRegion _

/-! ## §3. One row. -/

/-- **All records of a row come back**, in their order. -/
theorem placeAll (hSettled : w.catalog.Settled) (house : UInt32) (total : Nat)
    (ts : List ItemTree) (hReturns : ItemTree.EveryOf (Item.Returns w.catalog) ts)
    (hNesting : ∀ t ∈ ts, t.nesting ≤ Record.maxDepth) (rest : List UInt8) :
    ∀ {s : Restoring} {moved : List ItemTree} (position : Nat),
      Returning w p fixtures moved s →
      Back w p fixtures moved ts s (Restoring.placeAll house p total
        ts.length ⟨position, ItemTree.encodeAll w.catalog ts ++ rest⟩ s) := by
  induction ts with
  | nil =>
    intro s moved position h
    exact .nil h
  | cons t ts ih =>
    intro s moved position h
    obtain ⟨hShallow, hOthers⟩ := List.forall_mem_cons.1 hNesting
    have hReadable := hReturns.1.imp fun _ _ hi => hi.storable.readable
    -- The first tree is read back from its octets, whatever is written behind them.
    have hDecode := Record.decodeWithin_encode w.catalog t Record.maxDepth hReadable hShallow
      (ItemTree.encodeAll w.catalog ts ++ rest) position
    obtain ⟨s', hPlace, hKeeps, hOutcome⟩ := h.outcome hReturns.1 fun hStays _ hFound =>
      h.mem_fixtures hSettled hStays hFound
    have hBack := hOutcome.back h hKeeps
    have hRest := ih hReturns.2 hOthers (position + (t.encode w.catalog).length) hBack.returning
    rw [ItemTree.encodeAll, List.append_assoc, List.length_cons, Restoring.placeAll, h.catalog,
      Record.decode, hDecode]
    dsimp only
    rw [hPlace]
    exact hBack.cons hRest

end Returning

/-- Before the first record nothing has come back and nothing is taken. -/
theorem Untouched.returning {w : World} {p : Position} {s : Restoring}
    (h : s.world.Untouched p) (hs : s.world.Sound) (hc : s.world.catalog = w.catalog)
    (hTile : (s.world.graph.tile? p).isSome) :
    Returning w p (s.world.graph.contents (.tile p)) [] s.begun := by
  constructor
  case sound => exact hs
  case catalog => exact hc
  case tile => exact hTile
  case stays =>
    intro id hid i hi
    rw [← hc]
    exact h.stays id hid i hi
  case ticking =>
    intro id hid _
    rw [← hc]
    exact h.ticking id hid
  -- No records yet, so nothing that has to be back.
  case back => exact ⟨[], [], (List.append_nil _).symm, trivial, trivial⟩
  case moves => exact fun t ht => absurd ht List.not_mem_nil

/-- **A row brings back what moves on its tile**, and leaves alone what lies elsewhere. -/
theorem restoreRow_returns {w : World} (hSettled : w.catalog.Settled) (house : UInt32)
    (p : Position) (ts : List ItemTree) (hReturns : ItemTree.EveryOf (Item.Returns w.catalog) ts)
    (hNesting : ∀ t ∈ ts, t.nesting ≤ Record.maxDepth) (hCount : ts.length < 4294967296)
    {s : Restoring} (hs : s.world.Sound) (hc : s.world.catalog = w.catalog)
    (hTile : (s.world.graph.tile? p).isSome) (hUntouched : s.world.Untouched p) :
    ∃ s', Restoring.restoreRow s { house, data := tileOctets w.catalog p ts } = s'
      ∧ Returning w p (s.world.graph.contents (.tile p)) (ts.filter w.isMoveable) s'
      ∧ Graph.Confined (s.world.graph.Around (· ∈ s.world.graph.contents (.tile p))) (· = p)
        s.world.graph s'.world.graph := by
  obtain ⟨position, hRow⟩ := Restoring.restoreRow_eq_placeAll w.catalog house p ts hCount hTile
  obtain ⟨hBack, hConfined⟩ := Returning.placeAll hSettled house ts.length ts hReturns hNesting []
    position (hUntouched.returning hs hc hTile)
  rw [List.append_nil] at hBack hConfined
  refine ⟨_, hRow, hBack, hConfined _ (hs.consistent.region_around _) ?_⟩
  exact fun id hid => .inr ⟨id, hid, .refl⟩

/-! ## §4. The trees on a tile. -/

/-- The trees on a tile that move, in order. -/
def movedOn (w : World) (p : Position) : List ItemTree :=
  (w.treesOn p).filter w.isMoveable

/-- What does not move is not among what moves. -/
theorem filter_of_stays {w : World} {ids : List ItemId} {ts : List ItemTree}
    (hShows : w.graph.ShowsAll ids ts)
    (hStays : ∀ id ∈ ids, ∀ i, w.graph.item? id = some i → i.Stays w.catalog) :
    ts.filter w.isMoveable = [] := by
  induction ts generalizing ids with
  | nil => rfl
  | cons t ts ih =>
    cases ids with
    | nil => exact hShows.elim
    | cons id ids =>
      obtain ⟨hFirst, hRest⟩ := List.forall_mem_cons.1 hStays
      -- What moves has a type that says so, and the type of this one says it stays.
      have hNot : ¬ w.isMoveable t = true := by
        intro hMoves
        obtain ⟨ty, hType, hMoveable⟩ := isMoveable_iff.1 hMoves
        rw [hFirst t.item hShows.1.item?_eq ty hType] at hMoveable
        cases hMoveable
      rw [List.filter_cons_of_neg hNot, ih hShows.2 hRest]

/-- Nothing that moves lies on a tile that is untouched. -/
theorem Untouched.movedOn_eq_nil {w : World} {p : Position} (h : w.Untouched p) (hw : w.Sound) :
    w.movedOn p = [] :=
  filter_of_stays (hw.shows_treesOn p) h.stays

/-- What moves on the tile of a row is what has come back. -/
theorem Returning.related {w : World} {p : Position} {fixtures : List ItemId}
    {moved : List ItemTree} {s : Restoring} (h : Returning w p fixtures moved s) :
    ItemTree.RelatedAll (Item.CameBack w.catalog) moved (s.world.movedOn p) := by
  obtain ⟨ids, us, hContents, hShows, hRelated⟩ := h.back
  have hFixtures : s.world.graph.ShowsAll fixtures (fixtures.filterMap s.world.graph.tree?) := by
    refine h.sound.consistent.filterMap_tree? ?_
    intro id hid
    obtain ⟨n, hn, _⟩ := h.sound.consistent.linked (.tile p) id
      (by rw [hContents]; exact List.mem_append_left ids hid)
    rw [hn]
    rfl
  -- The fixtures stand in front, and none of them moves.
  have hStay : (fixtures.filterMap s.world.graph.tree?).filter s.world.isMoveable = [] := by
    refine filter_of_stays hFixtures ?_
    rw [h.catalog]
    exact h.stays
  have hMove : us.filter s.world.isMoveable = us := by
    rw [List.filter_eq_self, isMoveable_eq h.catalog]
    exact isMoveable_of_cameBack hRelated h.moves
  rw [movedOn, treesOn, hContents, List.filterMap_append, List.filter_append, hStay,
    h.sound.consistent.filterMap_tree?_eq hShows, hMove, List.nil_append]
  exact hRelated

section Elsewhere

variable {w w' : World} {p q : Position}

/-- The change of a tile, of what lies on it and of new items leaves other tiles alone. -/
theorem Sound.sameTile (hw : w.Sound)
    (hSpared : Graph.Spared (w.graph.Around (· ∈ w.graph.contents (.tile p))) (· = p)
      w.graph w'.graph) (hq : q ≠ p) : w.graph.SameTile w'.graph q where
  contents := hSpared.contents_tile hq
  leftAlone id hid := by
    refine hSpared.leftAlone fun _ hReach => hw.consistent.apart hid ?_ hReach
    intro root hRoot
    refine ⟨?_, p, hRoot⟩
    rintro rfl
    exact hq (Holder.tile.inj (hw.consistent.holder_unique hid hRoot))

/-- A tile that is kept has the same trees on it. -/
theorem treesOn_of_sameTile (hw : w.Sound) (hw' : w'.Sound)
    (h : w.graph.SameTile w'.graph q) : w'.treesOn q = w.treesOn q := by
  have hShows : w'.graph.ShowsAll (w.graph.contents (.tile q)) (w.treesOn q) :=
    (hw.shows_treesOn q).leftAlone h.leftAlone
  rw [treesOn, h.contents]
  exact hw'.consistent.filterMap_tree?_eq hShows

/-- A tile that is kept stays untouched. -/
theorem Untouched.of_sameTile (h : w.Untouched q) (hCatalog : w'.catalog = w.catalog)
    (hSame : w.graph.SameTile w'.graph q) : w'.Untouched q := by
  constructor
  · -- What lies on the tile is what lay there, and none of it has changed.
    intro id hid i hi
    rw [hSame.contents] at hid
    rw [(hSame.leftAlone id hid).item?_eq] at hi
    rw [hCatalog]
    exact h.stays id hid i hi
  · intro id hid
    rw [hSame.contents] at hid
    rw [hCatalog]
    exact (h.ticking id hid).leftAlone (hSame.leftAlone id hid)

end Elsewhere

end World

end Homestead
