/-
  Homestead.Proofs.World.Fates
  ────────────────────────────
  **WHAT BECOMES OF ITEMS, TILES AND SLEEPERS.**

  A single change leaves all items there.  It leaves an item as it was,
  lets its time start or pass, makes the updates of a record to it, or
  makes it one of another type, which a record asks for or which its type
  decays to.  What lies on a tile stays there, unless its time is up and
  its type decays to nothing.  A sleeper is found in an item that he sleeps
  in when he is noted.

  Main results:
    * `Change.fate` — what a change makes of an item;
    * `Fate.typeId_cases` — of which type it is then;
    * `Change.mem_tile` — what a change takes from a tile;
    * `Change.bedOf?_cases` — which sleepers a change notes.
-/
import Homestead.Proofs.World.Changes

namespace Homestead

/-! ## §1. Items that only wait for others. -/

/-- The items differ at most in what is still to come to them. -/
def Item.SameButPending (i i' : Item) : Prop :=
  i' = i ∨ ∃ n, i' = { i with variant := i.variant.setPending n }

/-- Being the same but for missing entries is blind to them. -/
theorem Item.sameButPending_pendingBlind : Graph.PendingBlind Item.SameButPending where
  refl _ := .inl rfl
  trans i i' i'' h h' := by
    rcases h with rfl | ⟨m, rfl⟩
    · exact h'
    · rcases h' with rfl | ⟨n, rfl⟩
      · exact .inr ⟨m, rfl⟩
      · exact .inr ⟨n, by rw [Graph.Variant.setPending_setPending]⟩
  pending _ n := .inr ⟨n, rfl⟩

/-- An item that differs in missing entries is firm. -/
theorem Item.SameButPending.firm {i i' : Item} (h : i.SameButPending i') : i.Firm i' := by
  rcases h with rfl | ⟨n, rfl⟩
  · exact Item.Firm.refl i'
  · exact Item.firm_setPending i n

namespace World

variable {A : Binding → Prop} {w w' : World} {id : ItemId} {i : Item}

/-! ## §2. Items. -/

/-- What a single change can make of an item under the number `id`. -/
inductive Fate (A : Binding → Prop) (w : World) (id : ItemId) (i : Item) : Item → Prop where
  /-- Nothing, but for what is still to come to it. -/
  | same {i' : Item} (h : i.SameButPending i') : Fate A w id i i'
  /-- Some of its time passes. -/
  | elapsed (n : Int) : Fate A w id i (i.increase .duration n)
  /-- Its time starts. -/
  | started (h : w.mayStart id = true) : Fate A w id i (i.setDecayState .running)
  /-- The updates of a record are made to it. -/
  | updated (r : Record) (hFields : r.FromFields) (h : A ⟨w, id, r⟩) :
    Fate A w id i (i.applyAll w.catalog r.updates)
  /-- It becomes what its type decays to. -/
  | decayed (target : TypeId) (h : w.decayTarget? id = some target) :
    Fate A w id i (i.become w.catalog target)
  /-- It is a door or a bed and becomes one of the type of a record that has gone to it. -/
  | bound (given : Binding) (t : ItemType) (h : A given) (hItem : given.item = id)
    (hType : w.catalog.get? given.record.typeId = some t)
    (hKind : t.isDoor = true ∧ i.isDoor = true ∨ t.isBed = true ∧ i.isBed = true) :
    Fate A w id i (i.become w.catalog given.record.typeId)

/-- It may be the fate of an item to stay as it is. -/
theorem Fate.refl (A : Binding → Prop) (w : World) (id : ItemId) (i : Item) : Fate A w id i i :=
  .same (.inl rfl)

/-- The items of another graph, of which one is under a number. -/
theorem fate_of_item? {g : Graph} (hi : w.graph.item? id = some i)
    (h : ∀ j i', w.graph.item? j = some i' → g.item? j = some i') :
    ∃ i', g.item? id = some i' ∧ Fate A w id i i' :=
  ⟨i, h id i hi, .refl A w id i⟩

/-- One item is changed where it lies. -/
theorem fate_update {j : ItemId} {f : Item → Item} (hi : w.graph.item? id = some i)
    (h : j = id → Fate A w id i (f i)) :
    ∃ i', (w.updateItem j f).graph.item? id = some i' ∧ Fate A w id i i' := by
  show ∃ i', (w.graph.update j f).item? id = some i' ∧ _
  rw [Graph.item?_update, hi]
  split_ifs with hj
  · exact ⟨f i, rfl, h hj.symm⟩
  · exact ⟨i, rfl, .refl A w id i⟩

/-- One item gets another type. -/
theorem fate_retype {j : ItemId} {newType : TypeId} (hi : w.graph.item? id = some i)
    (h : j = id → Fate A w id i (i.become w.catalog newType)) :
    ∃ i', (w.retype j newType).graph.item? id = some i' ∧ Fate A w id i i' := by
  show ∃ i', (w.graph.retype w.catalog j newType).item? id = some i' ∧ _
  rw [Graph.item?_retype, hi]
  split_ifs with hj
  · exact ⟨i.become w.catalog newType, rfl, h hj.symm⟩
  · exact ⟨i, rfl, .refl A w id i⟩

/-- An item that goes leaves the data of all, its own included. -/
theorem item?_vanish (w : World) (j k : ItemId) :
    (w.vanish j).graph.item? k = w.graph.item? k := by
  rw [vanish_eq]
  split
  next former g hDetach => exact Graph.item?_detach hDetach k
  next => rfl

/-- **What a change makes of an item.** -/
theorem Change.fate (h : Change A w w') (hw : w.Sound) (hi : w.graph.item? id = some i) :
    ∃ i', w'.graph.item? id = some i' ∧ Fate A w id i i' := by
  -- Most changes write at most one item; the others write links and lists.
  cases h with
  | noted j => exact fate_of_item? hi fun _ _ hj => by rw [graph_setSleeper, hj]
  | released sleeper => exact fate_of_item? hi fun _ _ hj => hj
  | listed decaying => exact fate_of_item? hi fun _ _ hj => hj
  | elapsed j n => exact fate_update hi fun _ => .elapsed n
  | started j hMay => exact fate_update hi fun hj => .started (hj ▸ hMay)
  | updated j r hFields hAllowed => exact fate_update hi fun hj => .updated r hFields (hj ▸ hAllowed)
  | decayed j target hTarget => exact fate_retype hi fun hj => .decayed target (hj ▸ hTarget)
  | vanished j _ _ => exact fate_of_item? hi fun k _ hk => by rw [item?_vanish, hk]
  | built r => exact fate_of_item? hi fun _ _ hj => Graph.item?_perform_build hw.consistent r hj
  | added p j => exact fate_of_item? hi fun k _ hk => by rw [Graph.item?_perform_add, hk]
  | emptied j g hEmpty =>
    obtain ⟨g', hEmpty', hEmptied⟩ := hw.consistent.emptyOut j
    obtain rfl := (Prod.mk.inj (hEmpty.symm.trans hEmpty')).2
    exact fate_of_item? hi fun k _ hk => by rw [hEmptied.items, hk]
  | filled j r =>
    obtain ⟨i', hi', hSame⟩ :=
      Graph.advances_fill Item.sameButPending_pendingBlind hw.consistent j r id i hi
    exact ⟨i', hi', .same hSame⟩
  | bound given i' t hAllowed hItem hType hKind =>
    refine fate_retype hi fun hj => .bound given t hAllowed hj hType ?_
    rw [hj, hi, Option.some_inj] at hItem
    rwa [hItem]

/-- **Which type an item has after a change**: its own, what that decays to, or the type of a record
that has gone to it. -/
theorem Fate.typeId_cases {i' : Item} (h : Fate A w id i i') (hi : w.graph.item? id = some i) :
    i'.typeId = i.typeId
      ∨ (∃ t target, w.catalog.get? i.typeId = some t ∧ t.decayTo = some target ∧ i'.typeId = target)
      ∨ ∃ given, A given ∧ given.item = id ∧ i'.typeId = given.record.typeId := by
  cases h with
  | same hSame => exact .inl hSame.firm.typeId
  | elapsed n => exact .inl rfl
  | started _ => exact .inl rfl
  | updated r _ _ => exact .inl (Item.typeId_applyAll w.catalog i r.updates)
  -- What an item decays to stands in its type.
  | decayed target hTarget =>
    obtain ⟨i₁, t, _, hi₁, ht, hTo, _⟩ := decayTarget?_eq_some hTarget
    obtain rfl := Option.some_inj.1 (hi.symm.trans hi₁)
    exact .inr (.inl ⟨t, target, ht, hTo, i.typeId_become w.catalog target⟩)
  | bound given t hAllowed hItem _ _ =>
    exact .inr (.inr ⟨given, hAllowed, hItem, i.typeId_become w.catalog given.record.typeId⟩)

/-! ## §3. Tiles. -/

/-- **What a change takes from a tile** has had its time, and decays to nothing. -/
theorem Change.mem_tile (h : Change A w w') (hw : w.Sound) {d : ItemId} {p : Position}
    (hMem : d ∈ w.graph.contents (.tile p)) :
    d ∈ w'.graph.contents (.tile p) ∨ w.decayTarget? d = none ∧ w.Due d := by
  -- Most changes leave all tiles as they are.
  have hTiles : w'.graph.tiles = w.graph.tiles → d ∈ w'.graph.contents (.tile p) := by
    intro hSame
    rw [Graph.contents, Graph.tile?_eq_of_tiles hSame]
    exact hMem
  cases h with
  | noted j => exact .inl (hTiles (by rw [graph_setSleeper]))
  | released sleeper => exact .inl hMem
  | listed decaying => exact .inl hMem
  | elapsed j n => exact .inl (hTiles (Graph.tiles_update w.graph j _))
  | started j _ => exact .inl (hTiles (Graph.tiles_update w.graph j _))
  | updated j r _ _ => exact .inl (hTiles (Graph.tiles_update w.graph j _))
  | decayed j target _ => exact .inl (hTiles (Graph.tiles_retype w.catalog j target))
  -- Only an item that vanishes is taken off a tile.
  | vanished j hTarget hDue =>
    by_cases hj : d = j
    · rw [hj]
      exact .inr ⟨hTarget, hDue⟩
    · left
      rw [vanish_eq]
      split
      next former g hDetach => exact Graph.mem_contents_detach hDetach hj hMem
      next => exact hMem
  | built r => exact .inl (hTiles (Graph.tiles_perform_build hw.consistent r))
  | added q j =>
    left
    dsimp only
    rw [Graph.perform_add]
    cases hAdd : w.graph.add (.tile q) j with
    | error e => exact hMem
    | ok g => exact Graph.mem_contents_add hAdd hMem
  | emptied j g hEmpty =>
    obtain ⟨g', hEmpty', hEmptied⟩ := hw.consistent.emptyOut j
    obtain rfl := (Prod.mk.inj (hEmpty.symm.trans hEmpty')).2
    exact .inl (hTiles hEmptied.tiles.1)
  | filled j r => exact .inl (hTiles (Graph.tiles_fill hw.consistent j r))
  | bound given i' t _ _ _ _ =>
    exact .inl (hTiles (Graph.tiles_retype w.catalog given.item given.record.typeId))

/-! ## §4. Sleepers. -/

/-- **Which sleepers a change notes**: those who sleep in an item, for that item. -/
theorem Change.bedOf?_cases (h : Change A w w') {g : UInt32} {bed : ItemId}
    (hBed : w'.bedOf? g = some bed) :
    w.bedOf? g = some bed ∨ w'.graph = w.graph ∧ g ≠ 0 ∧ w.sleeperIn bed = g := by
  -- Sleepers are written by two of the changes only.
  cases h with
  | noted j =>
    unfold setSleeper at hBed
    split_ifs at hBed with hNobody
    · exact .inl hBed
    · change (w.sleepers.insert (w.sleeperIn j) j)[g]? = some bed at hBed
      rw [Std.TreeMap.getElem?_insert] at hBed
      split_ifs at hBed with hSame
      · obtain rfl := Option.some_inj.1 hBed
        have hg := Std.LawfulEqCmp.eq_of_compare hSame
        exact .inr ⟨graph_setSleeper w j _, hg ▸ hNobody, hg⟩
      · exact .inl hBed
  | released sleeper =>
    change (w.sleepers.erase sleeper)[g]? = some bed at hBed
    rw [Std.TreeMap.getElem?_erase] at hBed
    split_ifs at hBed
    exact .inl hBed
  | _ => exact .inl hBed

end World

end Homestead
