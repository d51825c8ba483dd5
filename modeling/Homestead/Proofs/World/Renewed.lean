/-
  Homestead.Proofs.World.Renewed
  ──────────────────────────────
  **WHAT A FIXTURE BECOMES BY ITS RECORD.**

  A fixture to which the record of a tree goes has the fields of the record
  made to it and gets the type of the tree; what lay in it makes way for
  what is built of the contents; and time starts for all of it.  As long as
  nothing runs out on the way, that says all about the fixture there is to
  say, item by item.  Nothing else in the world matters.

  Main results:
    * `shows_register` — a tree for all of which time starts;
    * `ItemTree.renewed` — the tree of a fixture once a record has come to it;
    * `place_fixture_renewed` — that is what placing the record leaves.
-/
import Homestead.Proofs.World.Bound
import Homestead.Proofs.World.Returning

namespace Homestead

/-! ## §1. Trees of changed items. -/

namespace ItemTree

variable {f : Item → Item}

mutual

/-- The tree in which every item is changed. -/
def mapItems (f : Item → Item) : ItemTree → ItemTree
  | node i contents => node (f i) (mapAll f contents)

/-- The trees in which every item is changed. -/
def mapAll (f : Item → Item) : List ItemTree → List ItemTree
  | [] => []
  | t :: ts => t.mapItems f :: mapAll f ts

end

/-- There are as many trees after a change of their items. -/
theorem length_mapAll (ts : List ItemTree) : (mapAll f ts).length = ts.length := by
  induction ts with
  | nil => rfl
  | cons t ts ih => exact congrArg (· + 1) ih

end ItemTree

namespace Graph

variable {g g' : Graph} {f : Item → Item}

mutual

/-- Where all that lies in an item is changed, the item shows the changed tree. -/
theorem Shows.mapItems (hLinks : SameLinks g g') : ∀ (t : ItemTree) (id : ItemId),
    (∀ j i, g.Reaches j id → g.item? j = some i → g'.item? j = some (f i)) → g.Shows id t →
    g'.Shows id (t.mapItems f)
  | .node i contents, id, hItems, ⟨n, hn, hItem, hAll⟩ => by
    obtain ⟨n', hn', _, hList⟩ := hLinks.symm.node_eq hn
    have hi' := hItems id i .refl (item?_eq_some.2 ⟨n, hn, hItem⟩)
    rw [item?, hn', Option.map_some, Option.some_inj] at hi'
    refine ⟨n', hn', hi', hList ▸ ShowsAll.mapItems hLinks contents n.contents ?_ hAll⟩
    intro child hMem j i hReach hi
    have hLies : g.Lies child id := by
      rw [Lies, g.contents_item hn]
      exact hMem
    exact hItems j i (hReach.tail hLies) hi

/-- Where the links stay and each item becomes its image, the trees that are shown become theirs. -/
theorem ShowsAll.mapItems (hLinks : SameLinks g g') : ∀ (ts : List ItemTree) (ids : List ItemId),
    (∀ id ∈ ids, ∀ j i, g.Reaches j id → g.item? j = some i → g'.item? j = some (f i)) →
    g.ShowsAll ids ts → g'.ShowsAll ids (ItemTree.mapAll f ts)
  | [], [], _, _ => trivial
  | [], _ :: _, _, hAll => hAll.elim
  | _ :: _, [], _, hAll => hAll.elim
  | t :: ts, id :: ids, hItems, hAll => by
    obtain ⟨hFirst, hRest⟩ := List.forall_mem_cons.1 hItems
    exact ⟨Shows.mapItems hLinks t id hFirst hAll.1, ShowsAll.mapItems hLinks ts ids hRest hAll.2⟩

end

end Graph

/-! ## §2. Time starts for a tree. -/

namespace Item

variable {c : Catalog} {i : Item}

/-- An item with time left is started, or it has no time to start. -/
theorem started_of_lasting (h : i.Lasting c) :
    i.started c = if i.mayStart c then i.setDecayState .running else i := by
  unfold started
  cases hMay : i.mayStart c with
  | false => rfl
  | true =>
    obtain ⟨t, hType, hDecays⟩ := canDecay_of_mayStart hMay
    have hLeft := h t hType hDecays
    rw [Bool.not_true, if_neg (by decide), if_neg (Int.not_le.2 hLeft), if_pos rfl]

/-- An item with time left is of its type once time has started. -/
theorem typeId_started (h : i.Lasting c) : (i.started c).typeId = i.typeId := by
  rw [started_of_lasting h]
  split_ifs <;> rfl

/-- Time starts once. -/
theorem started_started (h : i.Lasting c) : (i.started c).started c = i.started c := by
  rw [started_of_lasting h]
  split_ifs with hMay
  · exact (started_of_running (decayState_setDecayState i .running)).1
  · rw [started_of_lasting h, if_neg hMay]

end Item

namespace World

variable {w : World} {id j : ItemId} {i : Item}

/-- Time starts for all that lies in an item, if the item is lower than so many levels. -/
def StartsBelow (height : ItemId → Nat) (levels : Nat) : Prop :=
  ∀ {w : World} {id : ItemId},
    (∀ inner outer, w.graph.Lies inner outer → height inner < height outer) →
    height id < levels → w.graph.AllWithin (Item.Lasting w.catalog) id →
    ∀ {j : ItemId} {i : Item}, w.graph.Reaches j id → w.graph.item? j = some i →
    (registerWithin levels w id).graph.item? j = some (i.started w.catalog)

/-- Time starts for what lies in the items of a list, one after the other.  What has started already
when its turn comes is not changed again. -/
theorem StartsBelow.each {height : ItemId → Nat} {levels : Nat} (h : StartsBelow height levels)
    (hHeight : ∀ inner outer, w.graph.Lies inner outer → height inner < height outer)
    (hLow : height id < levels + 1) (hLasting : w.graph.AllWithin (Item.Lasting w.catalog) id)
    (hi : i.Lasting w.catalog) (children : List ItemId) :
    ∀ {w' : World}, Started w w' id → (∀ child ∈ children, w.graph.Lies child id) →
      (w'.graph.item? j = some (i.started w.catalog)
        ∨ w'.graph.item? j = some i ∧ ∃ child ∈ children, w.graph.Reaches j child) →
      (children.foldl (registerWithin levels) w').graph.item? j = some (i.started w.catalog) := by
  induction children with
  | nil =>
    rintro w' _ _ (hDone | ⟨_, child, hMem, _⟩)
    · exact hDone
    · cases hMem
  | cons child children ih =>
    intro w' hStarted hLies hNow
    obtain ⟨hChild, hRest⟩ := List.forall_mem_cons.1 hLies
    have hSame : w'.graph.Lies = w.graph.Lies := hStarted.wound.lies
    have hWithin : w'.graph.AllWithin (Item.Lasting w'.catalog) child := by
      rw [hStarted.catalog]
      exact hStarted.wound.allWithin (fun _ _ hAlike => hAlike.lasting) (hLasting.inner hChild)
    have hThen := hStarted.trans (started_registerWithin levels hWithin) (.single hChild)
    refine ih hThen hRest ?_
    have hLower := hHeight child id hChild
    by_cases hIn : w'.graph.Reaches j child
    · -- It lies in this one, and so time starts for it now at the latest.
      have hStart := @h w' child (by rw [hSame]; exact hHeight) (by omega) hWithin
      rcases hNow with hDone | ⟨hOld, _⟩
      · rw [hStart hIn hDone, hStarted.catalog, Item.started_started hi]
        exact .inl rfl
      · rw [hStart hIn hOld, hStarted.catalog]
        exact .inl rfl
    · rw [item?_registerWithin levels hIn]
      refine hNow.imp_right ?_
      rintro ⟨hOld, other, hMem, hOther⟩
      refine ⟨hOld, other, (List.mem_cons.1 hMem).resolve_left ?_, hOther⟩
      rintro rfl
      rw [Graph.Reaches, hSame] at hIn
      exact hIn hOther

/-- **Time starts for all that lies in an item.** -/
theorem startsBelow (height : ItemId → Nat) (levels : Nat) : StartsBelow height levels := by
  induction levels with
  | zero => exact fun _ hLow => absurd hLow (Nat.not_lt_zero _)
  | succ levels ih =>
    intro w id hHeight hLow hLasting j i hReach hi
    rw [registerWithin]
    generalize ((w.graph.item? id).map (·.variant.sleeper)).getD 0 = sleeper
    have hHere := started_registered hLasting sleeper
    have hTurns := (turns_startDecay (w.setSleeper id sleeper) id).item? j
    rw [graph_setSleeper, catalog_setSleeper, hi] at hTurns
    -- Time has started for the item itself; what it holds is what it held.
    generalize (w.setSleeper id sleeper).startDecay id = w₁ at hHere hTurns ⊢
    refine ih.each hHeight hLow hLasting (hLasting j i hReach hi) _ hHere ?_ ?_
    · intro child hMem
      rwa [hHere.wound.contents_eq] at hMem
    · -- The item that is asked about is this one, or lies in one of its children.
      by_cases hj : j = id
      · rw [hTurns, if_pos hj]
        exact .inl rfl
      · rcases Relation.ReflTransGen.cases_tail hReach with rfl | ⟨child, hInner, hLies⟩
        · exact absurd rfl hj
        · rw [hTurns, if_neg hj]
          refine .inr ⟨rfl, child, ?_, hInner⟩
          rw [hHere.wound.contents_eq]
          exact hLies

/-- **Time starts for a tree**, and nothing else happens to it, if all items of it have time
left. -/
theorem shows_register (hw : w.graph.Consistent) {t : ItemTree} (hShows : w.graph.Shows id t)
    (hLasting : t.Every fun i _ => i.Lasting w.catalog) :
    (w.register id).graph.Shows id (t.mapItems (Item.started w.catalog)) := by
  have hWithin := Graph.Shows.allWithin t id hLasting hShows
  obtain ⟨height, hHeight, hSize⟩ := hw.exists_height
  refine Graph.Shows.mapItems (started_register hWithin).wound.links t id ?_ hShows
  intro j i hReach hi
  exact startsBelow height w.graph.size hHeight (hSize id hShows.isSome_node?) hWithin hReach hi

end World

/-! ## §3. A fixture and the record of a tree. -/

namespace Item

variable {c : Catalog} {i i' : Item}

/-- Missing entries are not written. -/
theorem SameButPending.headOctets (h : i.SameButPending i') :
    i'.headOctets c = i.headOctets c := by
  rcases h with rfl | ⟨n, rfl⟩
  · rfl
  · have hVariant : ({ i with variant := i.variant.setPending n } : Item).variantFields
        = i.variantFields := by
      unfold variantFields
      cases i.variant <;> rfl
    unfold Item.headOctets Item.fields
    rw [hVariant]
    rfl

theorem SameButPending.isContainer (h : i.SameButPending i') : i'.isContainer = i.isContainer := by
  rcases h with rfl | ⟨n, rfl⟩
  · rfl
  · exact Variant.isContainer_eq_of_sameKind (Variant.sameKind_setPending i.variant n)

/-- Missing entries are no matter of time. -/
theorem SameButPending.lasting_iff (h : i.SameButPending i') : i'.Lasting c ↔ i.Lasting c := by
  rcases h with rfl | ⟨n, rfl⟩
  · rfl
  · exact ⟨fun hThat => hThat.of_time rfl rfl, fun hThis => hThis.of_time rfl rfl⟩

/-- Time starts for both. -/
theorem SameButPending.started (h : i.SameButPending i') (hLasting : i.Lasting c) :
    (i.started c).SameButPending (i'.started c) := by
  rcases h with rfl | ⟨n, rfl⟩
  · exact .inl rfl
  · have hOther : ({ i with variant := i.variant.setPending n } : Item).Lasting c :=
      hLasting.of_time rfl rfl
    rw [started_of_lasting hLasting, started_of_lasting hOther]
    -- What is still expected has no part in whether time may start.
    have hMay : ({ i with variant := i.variant.setPending n } : Item).mayStart c = i.mayStart c :=
      rfl
    rw [hMay]
    split_ifs
    · exact .inr ⟨n, rfl⟩
    · exact .inr ⟨n, rfl⟩

end Item

namespace ItemTree

variable {c : Catalog} {t u : ItemTree}

/-- The tree of a fixture once the record of `t` has come to it. -/
def renewed (c : Catalog) (base t : ItemTree) : ItemTree :=
  node ((base.item.bound c (t.record c)).started c)
    (mapAll (Item.started c) ((Record.buildAll c (records c t.contents)).1.toOption.getD []))

/-- The trees differ at most in what is still to come to the outermost item. -/
structure SameButPending (t u : ItemTree) : Prop where
  /-- The outermost item. -/
  item : t.item.SameButPending u.item
  /-- What it holds. -/
  contents : u.contents = t.contents

/-- Trees that differ in missing entries are written alike. -/
theorem SameButPending.encode (h : t.SameButPending u) : u.encode c = t.encode c := by
  obtain ⟨i, contents⟩ := t
  obtain ⟨j, inner⟩ := u
  have hHead : j.headOctets c = i.headOctets c := h.item.headOctets
  have hHolds : j.isContainer = i.isContainer := h.item.isContainer
  obtain rfl : inner = contents := h.contents
  rw [ItemTree.encode, ItemTree.encode, hHead, hHolds]

/-- A tree is what the record of `t` makes of the tree of a fixture. -/
structure RenewedAs (c : Catalog) (base t u : ItemTree) : Prop where
  /-- It is the renewed tree, but for what is still to come to it. -/
  same : (base.renewed c t).SameButPending u
  /-- It has the type that the record names. -/
  typeId : u.item.typeId = t.item.typeId

end ItemTree

namespace Item

variable {c : Catalog} {i : Item}

/-- Items of one type hold things both, or neither does. -/
theorem Typed.isContainer_eq {i' : Item} {ty : ItemType} (h : i.Typed c) (h' : i'.Typed c)
    (hType : c.get? i.typeId = some ty) (hSame : i'.typeId = i.typeId) :
    i'.isContainer = i.isContainer := by
  have hThis := Variant.isContainer_eq_of_sameKind (h ty hType)
  have hThat := Variant.isContainer_eq_of_sameKind (h' ty (hSame ▸ hType))
  exact hThat.trans hThis.symm

theorem typeId_retyped (c : Catalog) (newType : TypeId) (i : Item) :
    (i.retyped c newType).typeId = newType := by
  unfold Item.retyped
  split_ifs with hSame
  · exact hSame
  · exact i.typeId_become c newType

/-- What is still to come to an item does not count when it gets a type that it does not have, if it
does not hold things. -/
theorem SameButPending.retyped {newType : TypeId} (n : UInt32)
    (hOther : i.typeId ≠ newType → i.isContainer = false) :
    (i.retyped c newType).SameButPending
      (({ i with variant := i.variant.setPending n } : Item).retyped c newType) := by
  unfold Item.retyped
  split_ifs with hSame
  · exact .inr ⟨n, rfl⟩
  · have hVariant : i.variant.setPending n = i.variant := by
      have hHolds := hOther hSame
      unfold Item.isContainer at hHolds
      cases hKind : i.variant <;> rw [hKind] at hHolds <;> first | rfl | cases hHolds
    rw [hVariant]
    exact .inl rfl

end Item

namespace World.Restoring

variable {c : Catalog} {s : Restoring} {p : Position} {t base : ItemTree} {id : ItemId}

/-- A fixture has been given what the record of a tree says. -/
structure Fixed (c : Catalog) (id : ItemId) (base t : ItemTree) (s s' : Restoring) : Prop where
  /-- The world is kept. -/
  keeps : Keeps s.world s'.world
  /-- The fixture has been given away. -/
  claimed : s'.claimed = s.claimed ++ [id]
  /-- It shows its tree, renewed by the record. -/
  shows : ∃ u, s'.world.graph.Shows id u ∧ base.RenewedAs c t u
  /-- What does not lie in it is as before. -/
  confined : ∀ (S : ItemId → Prop) (T : Position → Prop), s.world.graph.Region S → S id →
    Graph.Confined S T s.world.graph s'.world.graph

/-- What lies in a fixture that has been given what a record says: what is built of the contents. -/
theorem Readied.contents {i i' : Item} {inner : List ItemTree} {w : World} (hs : s.world.Sound)
    (hc : s.world.catalog = c)
    (h : Readied c id i' ((ItemTree.node i inner).record c) s.world w)
    (hReturns : (ItemTree.node i inner).Every (Item.Returns c))
    (hKind : i'.typeId ≠ i.typeId → i.isContainer = false) {j : Item}
    (hj : w.graph.item? id = some j) (hType : j.typeId = i.typeId) :
    ∃ ts, w.graph.Shows id (.node j ts) ∧ ItemTree.EveryOf (fun i _ => i.Lasting c) ts
      ∧ (Record.buildAll c (ItemTree.records c inner)).1 = .ok ts := by
  obtain ⟨n, hn, rfl⟩ := Graph.item?_eq_some.1 hj
  obtain ⟨ty, hUsable, hTyped⟩ := hReturns.1.storable.typed
  have hGet := Catalog.get?_of_usable? hUsable
  have hw := h.keeps.sound hs
  have hCatalog : w.catalog = c := h.keeps.catalog.trans hc
  have hOwn : i.Typed c := fun ty' hType' =>
    Option.some_inj.1 (hGet.symm.trans hType') ▸ hTyped
  have hThat : n.item.Typed c := hCatalog ▸ hw.typed id n.item hj
  -- Of one type, the fixture and the item of the tree both hold contents or neither does.
  have hSame : n.item.isContainer = i.isContainer := hOwn.isContainer_eq hThat hGet hType
  cases hHolds : i.isContainer with
  | false =>
    -- Neither the tree nor the fixture holds anything.
    have hInner : inner = [] := hReturns.1.storable.hollow (by rw [hHolds]; decide)
    have hNone : n.contents = [] := by
      by_contra hSome
      have hContainer := hw.consistent.holds id n hn hSome
      rw [hSame, hHolds] at hContainer
      cases hContainer
    refine ⟨[], ⟨n, hn, rfl, ?_⟩, trivial, ?_⟩
    · rw [hNone]
      trivial
    · rw [hInner]
      rfl
  | true =>
    have hChildren : ((ItemTree.node i inner).record c).children
        = some (ItemTree.records c inner) := by
      rw [ItemTree.record]
      exact if_pos hHolds
    -- A container has kept its type, as only other items may have got another.
    have hKeeps : i'.typeId = i.typeId := by
      by_contra hOther
      rw [hKind hOther] at hHolds
      cases hHolds
    obtain ⟨ts, hBuilt, hAll⟩ := h.inner hKeeps _ hChildren
    rw [w.graph.contents_item hn] at hAll
    exact ⟨ts, ⟨n, hn, rfl, hAll⟩, (built_returns hReturns hChildren hBuilt).2, hBuilt⟩

/-- A fixture that has the fields of the record of a tree, and its type: it has time left, and what
is still to come to it is all in which it can differ from what an item becomes by such a record. -/
theorem fixed_of_ticking {i i' fixed : Item} {inner : List ItemTree} (hTicking : i'.Ticking c)
    (hUnspent : i.Unspent c) {host : ItemType} (hHost : c.usable? i.typeId = some host)
    (hKind : i'.typeId ≠ i.typeId → i'.isContainer = false) {k : UInt32}
    (hFixed : fixed = ({ i'.applyAll c ((ItemTree.node i inner).record c).updates with
      variant := (i'.applyAll c ((ItemTree.node i inner).record c).updates).variant.setPending k }
        : Item).retyped c ((ItemTree.node i inner).record c).typeId) :
    fixed.typeId = i.typeId ∧ fixed.Lasting c
      ∧ (i'.bound c ((ItemTree.node i inner).record c)).SameButPending fixed := by
  have hTypeId : ((ItemTree.node i inner).record c).typeId = i.typeId := rfl
  have hFittedType := Item.typeId_applyAll c i' ((ItemTree.node i inner).record c).updates
  have hFittedHolds := isContainer_applyAll c i' ((ItemTree.node i inner).record c).updates
  rw [Item.bound_eq, hTypeId]
  rw [hTypeId] at hFixed
  generalize hFitted : i'.applyAll c ((ItemTree.node i inner).record c).updates = fitted at *
  obtain ⟨hKept, hOther⟩ := lasting_of_ticking hTicking hUnspent hHost k inner hFitted.symm
  refine ⟨?_, ?_, ?_⟩
  · rw [hFixed, Item.typeId_retyped]
  · rw [hFixed, Item.retyped]
    -- It had the type of the record before, or is given it now.
    split_ifs with hOwn
    · exact hKept hOwn
    · exact hOther
  · rw [hFixed]
    refine Item.SameButPending.retyped k ?_
    rw [hFittedType, hFittedHolds]
    exact hKind

/-- A fixture to which a record of another type goes is a door or a bed, as is what the record was
written for, and neither of them holds things. -/
theorem holds_nothing_of_other {i i' : Item} {ty : ItemType}
    (hType : s.world.catalog.get? i.typeId = some ty) (hTyped : i.Typed s.world.catalog)
    (hFixture : s.world.fixture? p s.claimed i.typeId = some id)
    (hi' : s.world.graph.item? id = some i') (hOther : i'.typeId ≠ i.typeId) :
    i.isContainer = false ∧ i'.isContainer = false := by
  obtain ⟨_, _, j, hj, hBound⟩ := fixture?_eq_some hFixture
  obtain rfl := Option.some_inj.1 (hi'.symm.trans hj)
  -- A record of another type was found by its kind: both are doors, or both are beds.
  obtain ⟨ty', hType', hBoth⟩ := hBound.resolve_left hOther
  obtain rfl := Option.some_inj.1 (hType.symm.trans hType')
  constructor
  · refine Bool.eq_false_iff.2 fun hHolds => ?_
    obtain ⟨hDoor, hBed⟩ : i.isDoor = false ∧ i.isBed = false :=
      Variant.plain_of_isContainer hHolds
    rw [hTyped.isDoor_eq hType] at hDoor
    rw [hTyped.isBed_eq hType] at hBed
    rw [hDoor, hBed] at hBoth
    rcases hBoth with ⟨hNot, _⟩ | ⟨hNot, _⟩ <;> cases hNot
  · refine Bool.eq_false_iff.2 fun hHolds => ?_
    obtain ⟨hDoor, hBed⟩ : i'.isDoor = false ∧ i'.isBed = false :=
      Variant.plain_of_isContainer hHolds
    rw [hDoor, hBed] at hBoth
    rcases hBoth with ⟨_, hNot⟩ | ⟨_, hNot⟩ <;> cases hNot

/-- **A fixture to which the record of a tree goes is renewed by it**, if it has time left and the
tree has, or no time at all. -/
theorem place_fixture_renewed (hs : s.world.Sound) (hc : s.world.catalog = c)
    (hReturns : t.Every (Item.Returns c)) (hMoves : moves? c (t.record c) = some false)
    (hFixture : s.world.fixture? p s.claimed t.item.typeId = some id)
    (hBase : s.world.graph.Shows id base)
    (hTicking : s.world.graph.AllWithin (Item.Ticking c) id) :
    ∃ s', place p (t.record c) s = (.ok (), s') ∧ Fixed c id base t s s' := by
  subst hc
  obtain ⟨i, inner⟩ := t
  obtain ⟨i', inner'⟩ := base
  obtain ⟨n, hn, rfl, hInner'⟩ := hBase
  have hi : s.world.graph.item? id = some n.item := Graph.item?_eq_some.2 ⟨n, hn, rfl⟩
  have hFits := (ItemTree.node i inner).record_fits
    (hReturns.imp fun _ _ hItem => hItem.storable.readable)
  obtain ⟨ty, hUsable, hVariant⟩ := hReturns.1.storable.typed
  have hGet := Catalog.get?_of_usable? hUsable
  have hTyped : i.Typed s.world.catalog := fun ty' hType' =>
    Option.some_inj.1 (hGet.symm.trans hType') ▸ hVariant
  have hKind := holds_nothing_of_other hGet hTyped hFixture hi
  -- The fixture is readied first: attributes, type and contents of the record.
  obtain ⟨tally, w, hPlace, hReadied⟩ := place_fixture hs hFits hMoves hFixture hi
  obtain ⟨k, hItem⟩ := hReadied.item
  generalize hFixed : Item.retyped _ _ _ = fixed at hItem
  obtain ⟨hType, hRoot, hSame⟩ := fixed_of_ticking (hTicking id n.item .refl hi)
    hReturns.1.unspent hUsable (fun hOther => (hKind hOther).2) hFixed.symm
  obtain ⟨ts, hShows, hLasting, hBuilt⟩ := hReadied.contents hs rfl hReturns
    (fun hOther => (hKind hOther).1) hItem hType
  have hCatalog : w.catalog = s.world.catalog := hReadied.keeps.catalog
  have hEvery : (ItemTree.node fixed ts).Every fun i _ => i.Lasting w.catalog := by
    rw [hCatalog]
    exact ⟨hRoot, hLasting⟩
  -- Then time starts in it and in all that it holds.
  have hTree := shows_register (hReadied.keeps.sound hs).consistent hShows hEvery
  have hStarted := started_register (Graph.Shows.allWithin _ id hEvery hShows)
  refine ⟨_, hPlace, ?_⟩
  constructor
  case keeps => exact hReadied.keeps.trans (keeps_register w id)
  case claimed => rfl
  case shows =>
    rw [hCatalog] at hTree
    refine ⟨_, hTree, ⟨hSame.started (hSame.lasting_iff.1 hRoot), ?_⟩, ?_⟩
    · show _ = ItemTree.mapAll _ ((Record.buildAll _ (ItemTree.records _ inner)).1.toOption.getD [])
      rw [hBuilt]
      rfl
    · show (fixed.started s.world.catalog).typeId = i.typeId
      rw [Item.typeId_started hRoot, hType]
  case confined =>
    intro S T hRegion hid
    have hFirst := hReadied.confined S T hRegion hid
    exact hFirst.trans (hStarted.confined S T hFirst.region hid)

end World.Restoring

end Homestead
