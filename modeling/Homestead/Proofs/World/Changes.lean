/-
  Homestead.Proofs.World.Changes
  ──────────────────────────────
  **ALL THAT LOADING AND TIME CAN DO.**

  Bringing rows back and letting time pass take a world through single
  changes: notes beside the graph, time of an item that starts or passes,
  updates of an item, items that are built and put on a tile, items that
  are emptied and filled, items that get another type, and items that are
  taken away.  Every change comes with its reason: a sleeper is noted for
  the item that he sleeps in, and an item is taken away only when its time
  is up and its type decays to nothing.  What every such change keeps is
  kept by every row, whatever is in it, and by all time that passes.

  Which records go to which items of the map depends on the rows.  What is
  asked of them is therefore a parameter, a property of bindings.

  Main results:
    * `Change`, `Changes` — a single change, and a run of them;
    * `Change.sound` — every change keeps a world sound;
    * `changes_restoreRows`, `changes_processDecay` — rows and time are runs
      of changes.
-/
import Homestead.Proofs.Graph.Advance
import Homestead.Proofs.Record.Decoded
import Homestead.Proofs.Record.Source
import Homestead.Proofs.World.Place

namespace Homestead

open Homestead.Stream

/-! ## §1. Updates that fields make. -/

namespace Record

/-- Fields have made the updates of the record. -/
def FromFields (r : Record) : Prop :=
  ∀ u ∈ r.updates, ∃ tag : Tag, tag.Makes u

/-- The updates of a record that is read come from its fields. -/
theorem fromFields_givenByReading (c : Catalog) : GivenByReading c FromFields where
  ended _ fs := Field.exists_makes _ fs
  holding _ fs _ _ _ _ := Field.exists_makes _ fs

end Record

namespace World

open Restoring

/-! ## §2. Records that go to items of the map. -/

/-- A record that goes to an item of the map. -/
structure Binding where
  /-- The world before. -/
  world : World
  /-- The item. -/
  item : ItemId
  /-- The record. -/
  record : Record

namespace Restoring

/-- The item of the map that a record goes to, if it does. -/
def binding? (p : Position) (r : Record) (s : Restoring) : Option Binding :=
  if moves? s.world.catalog r = some false then
    (s.world.fixture? p s.claimed r.typeId).map fun id => ⟨s.world, id, r⟩
  else none

/-- Which of the next `left` records go to which items of the map. -/
def bindingsWithin (p : Position) : Nat → Reader → Restoring → List Binding
  | 0, _, _ => []
  | left + 1, reader, s =>
    match Record.decode s.world.catalog reader with
    | .error _ => []
    | .ok (r, reader) =>
      (s.binding? p r).toList ++ match place p r s with
        | (.error _, _) => []
        | (.ok (), s) => bindingsWithin p left reader s

/-- Which records of a row go to which items of the map. -/
def rowBindings (s : Restoring) (row : TileRow) : List Binding :=
  match readHead (Reader.ofOctets row.data) with
  | none => []
  | some ((p, count), reader) =>
    match s.world.graph.tile? p with
    | none => []
    | some _ => bindingsWithin p count.toNat reader
      { s with report := { s.report with rows := s.report.rows + 1 }, claimed := [] }

/-- Which records of rows go to which items of the map. -/
def bindings (s : Restoring) : List TileRow → List Binding
  | [] => []
  | row :: rows => s.rowBindings row ++ (s.restoreRow row).bindings rows

end Restoring

/-! ## §3. Single changes. -/

/-- The character who sleeps in an item, 0 for nobody. -/
def sleeperIn (w : World) (id : ItemId) : UInt32 :=
  ((w.graph.item? id).map (·.variant.sleeper)).getD 0

/-- An item whose time may be up: it could be started, or it runs. -/
def Due (w : World) (id : ItemId) : Prop :=
  w.mayStart id = true ∨ ∃ i, w.graph.item? id = some i ∧ i.decayState = .running

/-- A single change that loading or time makes to a world, where records go to items of the map only
as `A` allows. -/
inductive Change (A : Binding → Prop) (w : World) : World → Prop where
  /-- The character who sleeps in an item is noted. -/
  | noted (id : ItemId) : Change A w (w.setSleeper id (w.sleeperIn id))
  /-- A sleeper is struck out. -/
  | released (sleeper : UInt32) : Change A w (w.removeSleeper sleeper)
  /-- The decay list is another one. -/
  | listed (decaying : List ItemId) : Change A w { w with decaying }
  /-- Some of the time of an item passes. -/
  | elapsed (id : ItemId) (n : Int) : Change A w (w.updateItem id (·.increase .duration n))
  /-- The time of an item starts. -/
  | started (id : ItemId) (h : w.mayStart id = true) :
    Change A w (w.updateItem id (·.setDecayState .running))
  /-- The updates of a record are made to an item. -/
  | updated (id : ItemId) (r : Record) (hFields : r.FromFields) (h : A ⟨w, id, r⟩) :
    Change A w (w.updateItem id fun i => i.applyAll w.catalog r.updates)
  /-- An item becomes what its type decays to. -/
  | decayed (id : ItemId) (target : TypeId) (h : w.decayTarget? id = some target) :
    Change A w (w.retype id target)
  /-- An item whose type decays to nothing is taken out of the world. -/
  | vanished (id : ItemId) (hTarget : w.decayTarget? id = none) (hDue : w.Due id) :
    Change A w (w.vanish id)
  /-- A record is built. -/
  | built (r : Record) : Change A w { w with graph := w.graph.perform w.catalog (.build r) }
  /-- An item is put on a tile. -/
  | added (p : Position) (id : ItemId) :
    Change A w { w with graph := w.graph.perform w.catalog (.add (.tile p) id) }
  /-- Everything is taken out of an item. -/
  | emptied (id : ItemId) (g : Graph) (h : emptyOut w.graph id = (.ok (), g)) :
    Change A w { w with graph := g }
  /-- The contents of a record are put into an item. -/
  | filled (id : ItemId) (r : Record) :
    Change A w { w with graph := w.graph.perform w.catalog (.fill id r) }
  /-- A door or a bed becomes one of the type of the record that has gone to it. -/
  | bound (given : Binding) (i : Item) (t : ItemType) (h : A given)
    (hItem : w.graph.item? given.item = some i)
    (hType : w.catalog.get? given.record.typeId = some t)
    (hKind : t.isDoor = true ∧ i.isDoor = true ∨ t.isBed = true ∧ i.isBed = true) :
    Change A w (w.retype given.item given.record.typeId)

/-- Single changes, one after another. -/
abbrev Changes (A : Binding → Prop) : World → World → Prop :=
  Relation.ReflTransGen (Change A)

variable {A : Binding → Prop} {w w' : World}

/-- **Every change keeps a world sound.** -/
theorem Change.sound (h : Change A w w') (hw : w.Sound) : w'.Sound := by
  -- Items that are built, added or filled are dealt with by what can be done to items at all.
  have hPerform : ∀ a : Graph.Action,
      ({ w with graph := w.graph.perform w.catalog a } : World).Sound := by
    intro a
    exact ⟨hw.consistent.perform a, Graph.allTyped_perform hw.consistent hw.typed a⟩
  have hAttributes : ∀ (id : ItemId) (f : Item → Item), (∀ i, (f i).typeId = i.typeId) →
      (∀ i, (f i).variant = i.variant) → (w.updateItem id f).Sound := by
    intro id f hType hVariant
    refine (keeps_updateItem w id hType ?_).sound hw
    intro i
    rw [hVariant]
    exact Variant.sameKind_refl _
  cases h with
  | noted id => exact (keeps_setSleeper w id _).sound hw
  | released sleeper => exact ⟨hw.consistent, hw.typed⟩
  | listed decaying => exact ⟨hw.consistent, hw.typed⟩
  | elapsed id n => exact hAttributes id _ (fun _ => rfl) fun _ => rfl
  | started id _ => exact hAttributes id _ (fun _ => rfl) fun _ => rfl
  | updated id r _ _ =>
    exact (keeps_updateItem w id (fun i => Item.typeId_applyAll w.catalog i r.updates)
      fun i => Item.sameKind_variant_applyAll w.catalog i r.updates).sound hw
  | decayed id target _ => exact (keeps_retype w id target).sound hw
  | vanished id _ _ => exact (keeps_vanish w id).sound hw
  | built r => exact hPerform (.build r)
  | added p id => exact hPerform (.add (.tile p) id)
  | emptied id g hEmpty =>
    obtain ⟨g', hEmpty', hEmptied⟩ := hw.consistent.emptyOut id
    obtain rfl := (Prod.mk.inj (hEmpty.symm.trans hEmpty')).2
    exact ⟨hEmptied.consistent, hw.typed.of_item? hEmptied.items⟩
  | filled id r => exact hPerform (.fill id r)
  | bound given i t _ _ _ _ => exact (keeps_retype w given.item given.record.typeId).sound hw

/-- No change touches the catalog or a house. -/
theorem Change.catalog_houses (h : Change A w w') :
    w'.catalog = w.catalog ∧ w'.houses = w.houses := by
  cases h with
  | noted id =>
    unfold setSleeper
    split_ifs <;> exact ⟨rfl, rfl⟩
  | _ => exact ⟨rfl, rfl⟩

/-- A single change leaves the catalog. -/
theorem Change.catalog (h : Change A w w') : w'.catalog = w.catalog :=
  h.catalog_houses.1

/-- A single change leaves the register of houses. -/
theorem Change.houses (h : Change A w w') : w'.houses = w.houses :=
  h.catalog_houses.2

/-- **What every change keeps is kept by a run of changes.** -/
theorem Changes.keeps {P : World → Prop} (h : Changes A w w') (hw : P w)
    (hStep : ∀ v v', Change A v v' → P v → P v') : P w' := by
  induction h with
  | refl => exact hw
  | tail _ hChange ih => exact hStep _ _ hChange ih

/-- Changes leave the catalog. -/
theorem Changes.catalog (h : Changes A w w') : w'.catalog = w.catalog :=
  h.keeps (P := fun v => v.catalog = w.catalog) rfl fun _ _ hChange hv => hChange.catalog.trans hv

/-- Changes leave the register of houses. -/
theorem Changes.houses (h : Changes A w w') : w'.houses = w.houses :=
  h.keeps (P := fun v => v.houses = w.houses) rfl fun _ _ hChange hv => hChange.houses.trans hv

/-- Changes keep a world sound. -/
theorem Changes.sound (h : Changes A w w') (hw : w.Sound) : w'.Sound :=
  h.keeps hw fun _ _ hChange hv => hChange.sound hv

/-! ## §4. Time. -/

/-- That an item's time begins to run is a change. -/
theorem changes_enlist {id : ItemId} (h : w.mayStart id = true) :
    Changes A w (w.enlist id) :=
  .tail (.single (.started id h)) (.listed _)

/-- The end of an item is made of changes: it goes, or it becomes another and may run on. -/
theorem changes_finishDecay {id : ItemId} (hDue : w.Due id) :
    Changes A w (w.finishDecay id) := by
  obtain ⟨hNone, hGone⟩ | ⟨target, hTarget, hEnds⟩ := w.finishDecay_cases id
  · rw [hGone]
    exact .single (.vanished id hNone hDue)
  · -- The change of type releases a sleeper, if there is one.
    have hBecame : Changes A w ((w.retype id target).wake id) := by
      refine .trans (.single (.decayed id target hTarget)) ?_
      unfold wake
      dsimp only
      split_ifs
      · exact .single (.released _)
      · exact .refl
    obtain hRests | ⟨hMay, hAgain⟩ := hEnds
    · rw [hRests]
      exact hBecame
    · rw [hAgain]
      exact hBecame.trans (changes_enlist hMay)

/-- Starting the time of an item is made of changes. -/
theorem changes_startDecay (w : World) (id : ItemId) : Changes A w (w.startDecay id) := by
  obtain hSame | ⟨hMay, hOver | hListed⟩ := w.startDecay_cases id
  · rw [hSame]
  · rw [hOver]
    exact changes_finishDecay (.inl hMay)
  · rw [hListed]
    exact changes_enlist hMay

/-- A pass over a list is made of changes if each of its steps is. -/
theorem changes_foldl {α : Type} {f : World → α → World} (hf : ∀ w a, Changes A w (f w a))
    (as : List α) (w : World) : Changes A w (as.foldl f w) := by
  induction as generalizing w with
  | nil => exact .refl
  | cons a as ih => exact (hf w a).trans (ih (f w a))

/-- Registering an item with all that lies in it is made of changes. -/
theorem changes_register (w : World) (id : ItemId) : Changes A w (w.register id) := by
  unfold register
  generalize w.graph.size = levels
  induction levels generalizing w id with
  | zero => exact .refl
  | succ levels ih =>
    rw [registerWithin]
    have hHere : Changes A w _ := .trans (.single (.noted id)) (changes_startDecay _ id)
    exact hHere.trans (changes_foldl ih _ _)

/-- A tick of one item is made of changes. -/
theorem changes_decayItem (elapsed : Int) (w : World) (finished : Nat) (id : ItemId) :
    Changes A w (decayItem elapsed (w, finished) id).1 := by
  unfold decayItem
  dsimp only
  cases hi : w.graph.item? id with
  | none => exact .refl
  | some i =>
    dsimp only
    split_ifs with hStill
    · exact .refl
    · -- Time is left: the item is a little older and listed again.
      exact .tail (.single (.elapsed id (-elapsed))) (.listed _)
    · -- The time is up: the end of the decay is a run of changes.
      exact changes_finishDecay (.inr ⟨i, hi, by simpa using hStill⟩)

/-- **The passing of time is a run of changes.** -/
theorem changes_processDecay (w : World) (elapsed : Int) :
    Changes A w (w.processDecay elapsed).1 := by
  have hItems : ∀ (ids : List ItemId) (v : World) (finished : Nat),
      Changes A v (ids.foldl (decayItem elapsed) (v, finished)).1 := by
    intro ids
    induction ids with
    | nil => exact fun v finished => .refl
    | cons id ids ih =>
      intro v finished
      exact (changes_decayItem elapsed v finished id).trans
        (ih (decayItem elapsed (v, finished) id).1 (decayItem elapsed (v, finished) id).2)
  -- The list is emptied first, and then filled again by the items that still run.
  exact .trans (.single (.listed [])) (hItems w.decaying { w with decaying := [] } 0)

/-! ## §5. Records. -/

variable {s : Restoring} {p : Position} {r : Record}

/-- Placing a moveable record is made of changes. -/
theorem changes_placeMoveable : Changes A s.world (placeMoveable p r s).2.world := by
  -- The tree is there before the tile takes it, and stays if the tile does not.
  have hBuild : ∀ t, (r.build s.world.catalog).1 = .ok (some t) →
      Changes A s.world { s.world with graph := (s.world.graph.create t).2 } := by
    intro t hBuilt
    have hChange : Change A s.world _ := .built r
    have hGraph : s.world.graph.perform s.world.catalog (.build r) = (s.world.graph.create t).2 := by
      have hResult : r.build s.world.catalog = (.ok (some t), (r.build s.world.catalog).2) :=
        Prod.ext hBuilt rfl
      unfold Graph.perform
      dsimp only
      rw [hResult]
    exact .single (hGraph ▸ hChange)
  unfold placeMoveable
  cases hResult : r.build s.world.catalog with
  | mk result tally =>
    cases result with
    | error e => exact .refl
    | ok o =>
      cases o with
      | none => exact .refl
      | some t =>
        have hBuilt := hBuild t (by rw [hResult])
        dsimp only [count]
        rw [Graph.tryAdd_eq]
        cases hAdd : (s.world.graph.create t).2.add (.tile p) (s.world.graph.create t).1 with
        | error e => exact hBuilt
        | ok g =>
          have hAdded : Change A { s.world with graph := (s.world.graph.create t).2 } _ :=
            .added p (s.world.graph.create t).1
          have hGraph : (s.world.graph.create t).2.perform s.world.catalog
              (.add (.tile p) (s.world.graph.create t).1) = g := by
            rw [Graph.perform_add, hAdd]
            rfl
          exact (hBuilt.tail (hGraph ▸ hAdded)).trans (changes_register _ _)

/-- Other contents leave all items firm. -/
theorem changes_replaceContents (hs : s.world.Sound) (id : ItemId) :
    Changes A s.world (replaceContents id r s).2.world
      ∧ s.world.graph.Advances Item.Firm (replaceContents id r s).2.world.graph := by
  have hSame : s.world.graph.Advances Item.Firm s.world.graph :=
    Graph.advances_of_item? Item.Firm.refl fun _ _ hi => hi
  unfold replaceContents
  cases r.children with
  | none => exact ⟨.refl, hSame⟩
  | some rs =>
    obtain ⟨g, hEmpty, hEmptied⟩ := hs.consistent.emptyOut id
    dsimp only
    rw [hEmpty]
    -- Two changes: the old contents go, and then the new ones come.
    refine ⟨.tail (.single (.emptied id g hEmpty)) (.filled id r), ?_⟩
    exact (Graph.firm_emptyOut hs.consistent hEmpty).firm_trans
      (Graph.firm_fill hEmptied.consistent id r)

/-- The record goes to an item of its type, or of its kind if that is door or bed. -/
theorem changes_bindFixture (hs : s.world.Sound) (hFields : r.FromFields) {id : ItemId} {i : Item}
    (hi : s.world.graph.item? id = some i)
    (hBound : i.typeId = r.typeId ∨ ∃ t, s.world.catalog.get? r.typeId = some t
      ∧ (t.isDoor = true ∧ i.isDoor = true ∨ t.isBed = true ∧ i.isBed = true))
    (hAllowed : A ⟨s.world, id, r⟩) :
    Changes A s.world (bindFixture id r s).2.world := by
  have hUpdated : Change A s.world (s.world.updated id r) := .updated id r hFields hAllowed
  have hAdvanced : s.world.graph.Advances Item.Firm (s.world.updated id r).graph :=
    Graph.advances_update Item.Firm.refl id fun i _ => Item.firm_applyAll s.world.catalog r.updates i
  obtain ⟨hReplaced, hFirm⟩ := changes_replaceContents (A := A) (r := r)
    (s := { s with world := s.world.updated id r }) (hUpdated.sound hs) id
  have hSoFar : Changes A s.world _ := .head hUpdated hReplaced
  -- The item is still of the type and of the kind that the record found.
  obtain ⟨i', hi', hSame⟩ := hAdvanced.firm_trans hFirm id i hi
  have hCatalog := hSoFar.catalog
  cases hReplace : replaceContents id r { s with world := s.world.updated id r } with
  | mk result s' =>
    rw [hReplace] at hSoFar hi' hCatalog
    cases result with
    | error e =>
      rw [bindFixture_of_refused hReplace]
      exact hSoFar
    | ok _ =>
      rw [bindFixture_eq hReplace]
      refine Relation.ReflTransGen.trans ?_ (changes_register _ id)
      unfold retyped
      dsimp only at hi' hCatalog ⊢
      split_ifs with hOther
      · rw [hi', Option.any_some, hSame.typeId] at hOther
        have hne : i.typeId ≠ r.typeId := by simpa using hOther
        obtain ⟨t, ht, hKind⟩ := hBound.resolve_left hne
        refine hSoFar.tail (.bound ⟨s.world, id, r⟩ i' t hAllowed hi' (by rw [hCatalog]; exact ht) ?_)
        have hBed : i'.isBed = i.isBed := Variant.isBed_eq_of_sameKind hSame.kind
        rwa [hSame.isDoor_eq, hBed]
      · exact hSoFar

/-- Letting a record go changes nothing in the world. -/
theorem changes_throwAway : Changes A s.world (throwAway r s).2.world := by
  unfold throwAway
  dsimp only
  cases r.build s.world.catalog with
  | mk result tally =>
    -- What is built is not kept; only a character who slept in it is let go.
    cases result with
    | error e => exact .refl
    | ok built =>
      dsimp only
      split_ifs
      · exact .single (.released _)
      · exact .refl

/-- **Whatever becomes of a record, it is a run of changes.** -/
theorem changes_place (hs : s.world.Sound) (hFields : r.FromFields)
    (hAllowed : ∀ b ∈ s.binding? p r, A b) :
    Changes A s.world (place p r s).2.world := by
  unfold binding? at hAllowed
  -- One case for each of the four ways that a record can go; only the last one binds.
  cases hMoves : moves? s.world.catalog r with
  | none =>
    rw [place_of_unknown hMoves]
    exact .refl
  | some moves =>
    cases moves with
    | true =>
      rw [place_of_moves hMoves]
      exact changes_placeMoveable
    | false =>
      rw [if_pos hMoves] at hAllowed
      cases hFixture : s.world.fixture? p s.claimed r.typeId with
      | none =>
        rw [place_of_no_fixture hMoves hFixture]
        exact changes_throwAway
      | some id =>
        obtain ⟨_, _, i, hi, hBound⟩ := fixture?_eq_some hFixture
        rw [place_of_fixture hMoves hFixture]
        refine changes_bindFixture hs hFields hi hBound (hAllowed _ ?_)
        rw [hFixture]
        rfl

/-! ## §6. Rows. -/

/-- Placing the records of a row is made of changes, among them the bindings that the row makes. -/
theorem changes_placeAll (house : UInt32) (p : Position) (total : Nat) :
    ∀ (left : Nat) (reader : Reader) (s : Restoring), s.world.Sound →
      (∀ b ∈ bindingsWithin p left reader s, A b) →
      Changes A s.world (placeAll house p total left reader s).world
  | 0, _, s, _, _ => .refl
  | left + 1, reader, s, hs, hAllowed => by
    rw [bindingsWithin] at hAllowed
    rw [placeAll]
    cases hDecode : Record.decode s.world.catalog reader with
    | error failure => exact .refl
    | ok pair =>
      obtain ⟨record, reader'⟩ := pair
      rw [hDecode] at hAllowed
      obtain ⟨hHere, hRest⟩ := List.forall_mem_append.1 hAllowed
      have hPlace : Changes A s.world (place p record s).2.world :=
        changes_place hs ((Record.fromFields_givenByReading _).decode hDecode)
          fun b hb => hHere b (Option.mem_toList.2 hb)
      dsimp only
      revert hPlace hRest
      cases place p record s with
      | mk result s' =>
        intro hRest hPlace
        -- A record that is not placed ends the row, with what was changed so far.
        cases result with
        | error e => exact hPlace
        | ok _ =>
          exact hPlace.trans (changes_placeAll house p total left reader' s' (hPlace.sound hs) hRest)

/-- Restoring a row is made of changes. -/
theorem changes_restoreRow (hs : s.world.Sound) {row : TileRow}
    (hAllowed : ∀ b ∈ s.rowBindings row, A b) :
    Changes A s.world (restoreRow s row).world := by
  unfold rowBindings at hAllowed
  unfold restoreRow
  dsimp only
  -- A row without a head or without a tile changes nothing.
  split
  next => exact .refl
  next p count reader hHead =>
    rw [hHead] at hAllowed
    dsimp only at hAllowed
    split
    next => exact .refl
    next t hTile =>
      rw [hTile] at hAllowed
      exact changes_placeAll row.house p count.toNat count.toNat reader
        { s with report := { s.report with rows := s.report.rows + 1 }, claimed := [] } hs hAllowed

/-- Restoring rows is made of changes, row after row. -/
theorem changes_rows (rows : List TileRow) (hs : s.world.Sound)
    (hAllowed : ∀ b ∈ s.bindings rows, A b) :
    Changes A s.world (rows.foldl restoreRow s).world := by
  induction rows generalizing s with
  | nil => exact .refl
  | cons row rows ih =>
    obtain ⟨hHere, hRest⟩ := List.forall_mem_append.1 hAllowed
    have hRow := changes_restoreRow hs hHere
    exact hRow.trans (ih (hRow.sound hs) hRest)

/-- **Rows are a run of changes.** -/
theorem changes_restoreRows (hw : w.Sound) (rows : List TileRow)
    (hAllowed : ∀ b ∈ bindings { world := w } rows, A b) :
    Changes A w (w.restoreRows rows).world :=
  changes_rows rows (s := { world := w }) hw hAllowed

/-- Loading house tiles is a run of changes, if its records go where they may. -/
theorem changes_loadItems_of_allowed (hw : w.Sound) {a : Archive} {loaded : Loaded LoadReport}
    (h : w.loadItems a = .ok loaded)
    (hAllowed : ∀ rows, a.tileRows = .ok rows → ∀ b ∈ bindings { world := w } rows, A b) :
    Changes A w loaded.world := by
  unfold loadItems at h
  obtain ⟨rows, hRows, hLoaded⟩ := bind_eq_ok.1 h
  rw [← Except.ok.inj hLoaded]
  exact changes_restoreRows hw rows (hAllowed rows hRows)

/-- Records may go to any items of the map. -/
def anyBinding : Binding → Prop :=
  fun _ => True

/-- **Loading house tiles is a run of changes**, whatever the rows are. -/
theorem changes_loadItems (hw : w.Sound) {a : Archive} {loaded : Loaded LoadReport}
    (h : w.loadItems a = .ok loaded) : Changes anyBinding w loaded.world :=
  changes_loadItems_of_allowed hw h fun _ _ _ _ => trivial

end World

end Homestead
