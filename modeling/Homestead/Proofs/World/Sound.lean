/-
  Homestead.Proofs.World.Sound
  ────────────────────────────
  **A WORLD STAYS SOUND.**

  A world is sound when links and lists of its graph agree and every item
  is in the variant of its type.  What is done to a world keeps it sound
  and leaves its catalog and its tiles where they are; here for the
  passing of time and for what is noted of loaded items.

  Main results:
    * `Keeps` — soundness, the catalog and the tiles are kept;
    * `finishDecay_cases`, `startDecay_cases` — what time can do to an item;
    * `keeps_startDecay`, `keeps_register` — starting the time of items.
-/
import Homestead.Proofs.Graph.Items
import Homestead.Proofs.Item.Decay
import Homestead.World.Restore

namespace Homestead

namespace World

/-! ## §1. Sound worlds. -/

/-- Links and lists agree, and every item is in the variant of its type. -/
structure Sound (w : World) : Prop where
  /-- Links and lists agree. -/
  consistent : w.graph.Consistent
  /-- Items are in the variants of their types. -/
  typed : w.graph.AllTyped w.catalog

/-- What is sound stays sound, with the same catalog and the same tiles. -/
structure Keeps (w w' : World) : Prop where
  /-- Soundness stays. -/
  sound : w.Sound → w'.Sound
  /-- The catalog is the same. -/
  catalog : w'.catalog = w.catalog
  /-- The tiles are there. -/
  tiles : ∀ p, (w'.graph.tile? p).isSome = (w.graph.tile? p).isSome

theorem Keeps.refl (w : World) : Keeps w w where
  sound h := h
  catalog := rfl
  tiles _ := rfl

/-- Two steps that keep a world sound do so together. -/
theorem Keeps.trans {w w' w'' : World} (h : Keeps w w') (h' : Keeps w' w'') : Keeps w w'' where
  sound hw := h'.sound (h.sound hw)
  catalog := h'.catalog.trans h.catalog
  tiles p := (h'.tiles p).trans (h.tiles p)

/-- What happens to the graph is all that counts. -/
theorem keeps_of_graph {w w' : World} (hCatalog : w'.catalog = w.catalog)
    (hGraph : w'.graph = w.graph) : Keeps w w' where
  sound hw := ⟨hGraph ▸ hw.consistent, hGraph ▸ hCatalog ▸ hw.typed⟩
  catalog := hCatalog
  tiles p := by rw [hGraph]

/-- Another graph with the same tiles. -/
theorem keeps_withGraph {w : World} {g : Graph} (hg : w.Sound → g.Consistent)
    (ht : w.Sound → g.AllTyped w.catalog)
    (hTiles : ∀ p, (g.tile? p).isSome = (w.graph.tile? p).isSome) :
    Keeps w { w with graph := g } where
  sound hw := ⟨hg hw, ht hw⟩
  catalog := rfl
  tiles := hTiles

/-- A world stays sound whatever is done to its graph. -/
theorem Sound.perform {w : World} (hw : w.Sound) (a : Graph.Action) :
    ({ w with graph := w.graph.perform w.catalog a } : World).Sound where
  consistent := hw.consistent.perform a
  typed := Graph.allTyped_perform hw.consistent hw.typed a

/-! ## §2. Single changes. -/

/-- Changing an item where it lies, if its type and what it can do stay. -/
theorem keeps_updateItem (w : World) (id : ItemId) {f : Item → Item}
    (hType : ∀ i, (f i).typeId = i.typeId)
    (hKind : ∀ i, (f i).variant.sameKind i.variant = true) : Keeps w (w.updateItem id f) := by
  refine keeps_withGraph ?_ ?_ ?_
  · intro hw
    refine hw.consistent.update id f ?_
    intro n _ hHolds
    show (f n.item).variant.isContainer = true
    -- The links stay sound only if a container stays one, which the kind of the variant decides.
    rw [Variant.isContainer_eq_of_sameKind (hKind n.item)]
    exact hHolds
  · intro hw
    refine hw.typed.update id f ?_
    intro i _ hi
    exact hi.of_sameKind (hType i) (hKind i)
  · intro p
    rw [Graph.tile?_eq_of_tiles (Graph.tiles_update _ _ _)]

/-- A change of type keeps the world sound. -/
theorem keeps_retype (w : World) (id : ItemId) (newType : TypeId) :
    Keeps w (w.retype id newType) := by
  refine keeps_withGraph ?_ ?_ ?_
  · exact fun hw => hw.consistent.retype w.catalog id newType
  · exact fun hw => hw.typed.retype id newType fun i _ => i.typed_become newType
  · intro p
    rw [Graph.tile?_eq_of_tiles (Graph.tiles_retype w.catalog id newType)]

/-- No tile comes or goes when an item is taken from its holder. -/
theorem isSome_tile?_detach {g g' : Graph} {id : ItemId} {former : Option Holder}
    (h : g.detach id = .ok (former, g')) (p : Position) :
    (g'.tile? p).isSome = (g.tile? p).isSome := by
  rcases (Graph.detach_eq_ok h).2 with ⟨_, rfl⟩ | ⟨holder, hRemove⟩
  · rw [Graph.tile?_eq_of_tiles (Graph.tiles_setHolder _ _ _)]
  · obtain ⟨_, rfl⟩ := Graph.remove_eq_ok hRemove
    exact Graph.isSome_tile?_relist _ _ _ _ p

/-- An item that is taken out of the world is detached, if it can be. -/
theorem vanish_eq (w : World) (id : ItemId) : w.vanish id = match w.graph.detach id with
    | .ok (_, graph) => { w with graph }
    | .error _ => w := by
  unfold vanish
  rw [Graph.tryDetach_eq]
  cases w.graph.detach id <;> rfl

/-- An item that goes leaves the world sound. -/
theorem keeps_vanish (w : World) (id : ItemId) : Keeps w (w.vanish id) := by
  rw [vanish_eq]
  split
  next former g hDetach =>
    refine keeps_withGraph ?_ ?_ (isSome_tile?_detach hDetach)
    · exact fun hw => hw.consistent.detach hDetach
    · exact fun hw => hw.typed.detach hDetach
  next => exact Keeps.refl w

/-! ## §3. Time. -/

/-- Whether the time of an item may start is told by the item and the catalog. -/
theorem mayStart_eq (w : World) (id : ItemId) :
    w.mayStart id = (w.graph.item? id).any (·.mayStart w.catalog) := by
  unfold mayStart typeOf?
  cases w.graph.item? id <;> rfl

theorem durationOf_of_item? {w : World} {id : ItemId} {i : Item}
    (hi : w.graph.item? id = some i) : w.durationOf id = i.duration := by
  rw [durationOf, hi]
  rfl

/-- What an item is to become is told by the item and the catalog. -/
theorem decayTarget?_eq (w : World) (id : ItemId) :
    w.decayTarget? id = (w.graph.item? id).bind (·.decayTarget? w.catalog) := by
  unfold decayTarget? typeOf?
  cases w.graph.item? id <;> rfl

/-- An item whose time may start is of a type that decays. -/
theorem mayStart_eq_true {w : World} {id : ItemId} (h : w.mayStart id = true) :
    ∃ i t, w.graph.item? id = some i ∧ w.catalog.get? i.typeId = some t ∧ t.canDecay = true := by
  rw [mayStart_eq, Option.any_eq_true] at h
  obtain ⟨i, hi, hMay⟩ := h
  obtain ⟨t, ht, hDecays⟩ := Item.canDecay_of_mayStart hMay
  exact ⟨i, t, hi, ht, hDecays⟩

/-- **What an item decays to** is a target of its type that the catalog has. -/
theorem decayTarget?_eq_some {w : World} {id : ItemId} {target : TypeId}
    (h : w.decayTarget? id = some target) :
    ∃ i t t', w.graph.item? id = some i ∧ w.catalog.get? i.typeId = some t
      ∧ t.decayTo = some target ∧ target ≠ 0 ∧ w.catalog.get? target = some t' := by
  rw [decayTarget?_eq, Option.bind_eq_some_iff] at h
  obtain ⟨i, hi, hTarget⟩ := h
  obtain ⟨t, t', hType⟩ := Item.exists_of_decayTarget? hTarget
  exact ⟨i, t, t', hi, hType⟩

/-- An item whose time begins to run leaves the world sound. -/
theorem keeps_enlist (w : World) (id : ItemId) : Keeps w (w.enlist id) := by
  have hRuns : Keeps w (w.updateItem id fun i => i.setDecayState .running) :=
    keeps_updateItem w id (fun _ => rfl) fun i => Variant.sameKind_refl i.variant
  exact hRuns.trans (keeps_of_graph rfl rfl)

/-- Sleepers are noted beside the graph. -/
theorem graph_wake (w : World) (id : ItemId) : (w.wake id).graph = w.graph := by
  unfold wake
  dsimp only
  split <;> rfl

/-- Waking a sleeper leaves the catalog. -/
theorem catalog_wake (w : World) (id : ItemId) : (w.wake id).catalog = w.catalog := by
  unfold wake
  dsimp only
  split <;> rfl

/-- Waking a sleeper keeps the world sound. -/
theorem keeps_wake (w : World) (id : ItemId) : Keeps w (w.wake id) :=
  keeps_of_graph (catalog_wake w id) (graph_wake w id)

/-- **How an item ends**: it goes, or it becomes another one, which may be listed again. -/
theorem finishDecay_cases (w : World) (id : ItemId) :
    (w.decayTarget? id = none ∧ w.finishDecay id = w.vanish id)
    ∨ ∃ target, w.decayTarget? id = some target
      ∧ (w.finishDecay id = (w.retype id target).wake id
        ∨ ((w.retype id target).wake id).mayStart id = true
          ∧ w.finishDecay id = ((w.retype id target).wake id).enlist id) := by
  unfold finishDecay
  split
  next hNone => exact .inl ⟨hNone, rfl⟩
  next target hTarget =>
    refine .inr ⟨target, hTarget, ?_⟩
    dsimp only
    split_ifs with hAgain
    · exact .inr ⟨(Bool.and_eq_true_iff.1 hAgain).2, rfl⟩
    · exact .inl rfl

/-- **What a start does**: nothing, unless the time of the item may start; then the item is listed,
or finished when it has none left. -/
theorem startDecay_cases (w : World) (id : ItemId) :
    w.startDecay id = w
    ∨ w.mayStart id = true
      ∧ (w.startDecay id = w.finishDecay id ∨ w.startDecay id = w.enlist id) := by
  unfold startDecay
  split_ifs with hNot
  · exact .inl rfl
  · exact .inr ⟨by simpa using hNot, .inl rfl⟩
  · exact .inr ⟨by simpa using hNot, .inr rfl⟩

/-- The end of an item keeps the world sound. -/
theorem keeps_finishDecay (w : World) (id : ItemId) : Keeps w (w.finishDecay id) := by
  obtain ⟨-, hGone⟩ | ⟨target, -, hEnds⟩ := w.finishDecay_cases id
  · rw [hGone]
    exact keeps_vanish w id
  · have hBecame := (keeps_retype w id target).trans (keeps_wake (w.retype id target) id)
    obtain hRests | ⟨-, hAgain⟩ := hEnds
    · rw [hRests]
      exact hBecame
    · rw [hAgain]
      exact hBecame.trans (keeps_enlist _ id)

/-- **Starting the time of an item**, or finishing the item when it has no time left. -/
theorem keeps_startDecay (w : World) (id : ItemId) : Keeps w (w.startDecay id) := by
  obtain hSame | ⟨-, hOver | hListed⟩ := w.startDecay_cases id
  · rw [hSame]
    exact Keeps.refl w
  · rw [hOver]
    exact keeps_finishDecay w id
  · rw [hListed]
    exact keeps_enlist w id

/-- Who sleeps where is noted beside the graph. -/
theorem graph_setSleeper (w : World) (bed : ItemId) (sleeper : UInt32) :
    (w.setSleeper bed sleeper).graph = w.graph := by
  unfold setSleeper
  split <;> rfl

theorem catalog_setSleeper (w : World) (bed : ItemId) (sleeper : UInt32) :
    (w.setSleeper bed sleeper).catalog = w.catalog := by
  unfold setSleeper
  split <;> rfl

/-- Noting a sleeper keeps the world sound. -/
theorem keeps_setSleeper (w : World) (bed : ItemId) (sleeper : UInt32) :
    Keeps w (w.setSleeper bed sleeper) :=
  keeps_of_graph (catalog_setSleeper w bed sleeper) (graph_setSleeper w bed sleeper)

/-- One change after another. -/
theorem keeps_foldl {α : Type} {f : World → α → World} (hf : ∀ w a, Keeps w (f w a))
    (as : List α) (w : World) : Keeps w (as.foldl f w) := by
  induction as generalizing w with
  | nil => exact Keeps.refl w
  | cons a as ih => exact (hf w a).trans (ih (f w a))

/-- Registering keeps the world sound, by induction over the levels. -/
theorem keeps_registerWithin (levels : Nat) (w : World) (id : ItemId) :
    Keeps w (registerWithin levels w id) := by
  induction levels generalizing w id with
  | zero => exact Keeps.refl w
  | succ levels ih =>
    rw [registerWithin]
    have hHere := (keeps_setSleeper w id
      (((w.graph.item? id).map (·.variant.sleeper)).getD 0)).trans (keeps_startDecay _ id)
    exact hHere.trans (keeps_foldl ih _ _)

/-- **Noting the sleepers of an item and of what it holds, and starting their time.** -/
theorem keeps_register (w : World) (id : ItemId) : Keeps w (w.register id) :=
  keeps_registerWithin w.graph.size w id

end World

end Homestead
