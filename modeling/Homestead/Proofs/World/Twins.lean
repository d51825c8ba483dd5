/-
  Homestead.Proofs.World.Twins
  ────────────────────────────
  **THE SAME RECORDS ON TWO TILES THAT LOOK ALIKE.**

  Bringing back a record reads the catalog, the items of one tile and which
  of them have been given away, and nothing else that the outcome depends
  on.  So worlds that are paired on the tile stay paired when the same
  records are brought back in both, and the reports of both grow by the
  same.  Sleepers and the list of decay differ; nothing on a tile depends
  on them.

  Main results:
    * `register_eq` — loaded items are registered however deep they lie;
    * `Twins.register` — time starts for paired items in step;
    * `Restoring.Twins.place` — a record;
    * `Restoring.Twins.placeAll` — the records of a row.
-/
import Homestead.Proofs.Graph.Twins
import Homestead.Proofs.World.Fates
import Homestead.Proofs.World.Reached

open Homestead.Stream

namespace Homestead

/-! ## §1. Reports are added up. -/

instance : Add LoadReport where
  add a b :=
    { rows := a.rows + b.rows
      skipped := a.skipped + b.skipped
      failed := a.failed + b.failed
      matched := a.matched + b.matched
      throwaway := a.throwaway + b.throwaway
      items := a.items + b.items }

/-- Reports with the same six counts are the same. -/
theorem LoadReport.ext {a b : LoadReport} (hRows : a.rows = b.rows) (hSkipped : a.skipped = b.skipped)
    (hFailed : a.failed = b.failed) (hMatched : a.matched = b.matched)
    (hThrowaway : a.throwaway = b.throwaway) (hItems : a.items = b.items) : a = b := by
  cases a
  cases b
  congr

instance : Zero LoadReport := ⟨{}⟩

instance : AddCommMonoid LoadReport where
  add_assoc a b c := LoadReport.ext (Nat.add_assoc _ _ _) (Nat.add_assoc _ _ _)
    (Nat.add_assoc _ _ _) (Nat.add_assoc _ _ _) (Nat.add_assoc _ _ _) (add_assoc _ _ _)
  zero_add a := LoadReport.ext (Nat.zero_add _) (Nat.zero_add _) (Nat.zero_add _) (Nat.zero_add _)
    (Nat.zero_add _) (zero_add _)
  add_zero a := rfl
  add_comm a b := LoadReport.ext (Nat.add_comm _ _) (Nat.add_comm _ _) (Nat.add_comm _ _)
    (Nat.add_comm _ _) (Nat.add_comm _ _) (add_comm _ _)
  nsmul := nsmulRec

namespace World

/-! ## §2. Registering is not cut off. -/

/-- Nothing comes to lie in anything. -/
def Thinner (w w' : World) : Prop :=
  ∀ inner outer, w'.graph.Lies inner outer → w.graph.Lies inner outer

/-- Nothing comes to lie in anything where the graph stays as it is. -/
theorem thinner_of_graph {w w' : World} (h : w'.graph = w.graph) : Thinner w w' := by
  intro inner outer hLies
  rwa [h] at hLies

/-- Two steps that let nothing lie deeper do so together. -/
theorem Thinner.trans {w w' w'' : World} (h : Thinner w w') (h' : Thinner w' w'') :
    Thinner w w'' :=
  fun inner outer hLies => h inner outer (h' inner outer hLies)

/-- An item that goes is taken out of something and put into nothing. -/
theorem thinner_vanish (w : World) (id : ItemId) : Thinner w (w.vanish id) := by
  rw [vanish_eq]
  split
  next former g hDetach => exact fun _ _ hLies => Graph.lies_of_detach hDetach hLies
  next => exact thinner_of_graph rfl

/-- To be listed is no matter of place. -/
theorem thinner_enlist (w : World) (id : ItemId) : Thinner w (w.enlist id) := by
  intro inner outer hLies
  have hSame : (w.graph.update id (·.setDecayState .running)).Lies inner outer := hLies
  rwa [Graph.Lies, Graph.contents_update] at hSame

/-- An item at its end goes, or becomes another, and may spill what it held; nothing is put
anywhere. -/
theorem thinner_finishDecay (w : World) (id : ItemId) : Thinner w (w.finishDecay id) := by
  obtain ⟨-, hGone⟩ | ⟨target, -, hEnds⟩ := w.finishDecay_cases id
  · rw [hGone]
    exact thinner_vanish w id
  · -- What held items may let them go, and takes none.
    have hRetyped : Thinner w ((w.retype id target).wake id) := by
      intro inner outer hLies
      rw [graph_wake] at hLies
      exact Graph.lies_of_retype hLies
    obtain hRests | ⟨-, hAgain⟩ := hEnds
    · rw [hRests]
      exact hRetyped
    · rw [hAgain]
      exact hRetyped.trans (thinner_enlist _ id)

/-- Starting the time of an item puts nothing into anything. -/
theorem thinner_startDecay (w : World) (id : ItemId) : Thinner w (w.startDecay id) := by
  obtain hSame | ⟨-, hOver | hListed⟩ := w.startDecay_cases id
  · rw [hSame]
    exact thinner_of_graph rfl
  · rw [hOver]
    exact thinner_finishDecay w id
  · rw [hListed]
    exact thinner_enlist w id

/-- The item's sleeper is noted and its time started. -/
theorem thinner_registered (w : World) (id : ItemId) (sleeper : UInt32) :
    Thinner w ((w.setSleeper id sleeper).startDecay id) :=
  (thinner_of_graph (graph_setSleeper w id sleeper)).trans (thinner_startDecay _ id)

/-- Registering an item with all that lies in it puts nothing into anything. -/
theorem thinner_registerWithin (levels : Nat) (w : World) (id : ItemId) :
    Thinner w (registerWithin levels w id) := by
  induction levels generalizing w id with
  | zero => exact thinner_of_graph rfl
  | succ levels ih =>
    rw [registerWithin]
    have hThinner := thinner_registered w id (((w.graph.item? id).map (·.variant.sleeper)).getD 0)
    generalize (w.setSleeper id _).startDecay id = w₁ at hThinner ⊢
    -- The contents are those before the children are registered, whatever becomes of the lists
    -- after.
    generalize w₁.graph.contents (.item id) = children
    induction children generalizing w₁ with
    | nil => exact hThinner
    | cons child children ihList => exact ihList _ (hThinner.trans (ih w₁ child))

/-- Levels that an item is lower than are enough to register it. -/
theorem registerWithin_of_height {height : ItemId → Nat} (levels : Nat) :
    ∀ {more : Nat} {w : World} {id : ItemId},
      (∀ inner outer, w.graph.Lies inner outer → height inner < height outer) →
      height id < levels → levels ≤ more → registerWithin more w id = registerWithin levels w id := by
  induction levels with
  | zero => exact fun _ hLow => absurd hLow (Nat.not_lt_zero _)
  | succ levels ih =>
    intro more w id hHeight hLow hMore
    obtain ⟨more, rfl⟩ : ∃ m, more = m + 1 := ⟨more - 1, by omega⟩
    rw [registerWithin, registerWithin]
    have hThinner := thinner_registered w id (((w.graph.item? id).map (·.variant.sleeper)).getD 0)
    generalize (w.setSleeper id _).startDecay id = w₁ at hThinner ⊢
    -- What lies in the item lay in it before, and is lower than it.
    have hLower : ∀ child ∈ w₁.graph.contents (.item id), height child < levels := by
      intro child hChild
      have hLess := hHeight child id (hThinner child id hChild)
      omega
    generalize w₁.graph.contents (.item id) = children at hLower
    induction children generalizing w₁ with
    | nil => rfl
    | cons child children ihList =>
      obtain ⟨hChild, hRest⟩ := List.forall_mem_cons.1 hLower
      have hSame : registerWithin more w₁ child = registerWithin levels w₁ child :=
        ih (fun inner outer hLies => hHeight inner outer (hThinner inner outer hLies)) hChild
          (by omega)
      rw [List.foldl_cons, List.foldl_cons, hSame]
      exact ihList _ (hThinner.trans (thinner_registerWithin levels w₁ child)) hRest

/-- Registering what is no item does nothing. -/
theorem registerWithin_of_none (levels : Nat) {w : World} {id : ItemId}
    (h : w.graph.node? id = none) : registerWithin levels w id = w := by
  have hNone : w.graph.item? id = none := by rw [Graph.item?, h, Option.map_none]
  cases levels with
  | zero => rfl
  | succ levels =>
    -- What is no item has no time that could start.
    have hStart : w.startDecay id = w := by
      unfold startDecay mayStart
      rw [hNone, Option.any_none, Bool.and_false]
      rfl
    rw [registerWithin, hNone, Option.map_none, Option.getD_none]
    show (((w.startDecay id)).graph.contents (.item id)).foldl _ (w.startDecay id) = w
    rw [hStart, Graph.contents, h]
    rfl

/-- **Registering is not cut off**: more levels than there are items make no difference. -/
theorem register_eq {w : World} (hw : w.graph.Consistent) (id : ItemId) {levels : Nat}
    (hLevels : w.graph.size ≤ levels) : w.register id = registerWithin levels w id := by
  unfold register
  cases hn : w.graph.node? id with
  | none => rw [registerWithin_of_none _ hn, registerWithin_of_none _ hn]
  | some n =>
    obtain ⟨height, hHeight, hSize⟩ := hw.exists_height
    exact (registerWithin_of_height _ hHeight (hSize id (by rw [hn]; rfl)) hLevels).symm

/-! ## §3. Time starts in step. -/

/-- The worlds have the same catalog, and their graphs are paired on a tile. -/
structure Twins (g₀ : Graph) (p : Position) (R : Graph.Pairing) (w w' : World) : Prop where
  /-- The catalog is the same. -/
  catalog : w'.catalog = w.catalog
  /-- The graphs are paired. -/
  graph : Graph.Twins g₀ p R w.graph w'.graph

variable {g₀ : Graph} {p : Position} {R R' : Graph.Pairing} {a b : ItemId}

namespace Twins

variable {w w' : World}

/-- Whether worlds are paired depends on their catalogs and graphs alone. -/
theorem of_graph (h : Twins g₀ p R w w') {u u' : World} (hCatalog : u.catalog = w.catalog)
    (hCatalog' : u'.catalog = w'.catalog) (hGraph : u.graph = w.graph)
    (hGraph' : u'.graph = w'.graph) : Twins g₀ p R u u' where
  catalog := hCatalog'.trans (h.catalog.trans hCatalog.symm)
  graph := by
    rw [hGraph, hGraph']
    exact h.graph

/-- The same change of data on both sides. -/
theorem updateItem (h : Twins g₀ p R w w') (hab : R a b) (f : Item → Item) :
    Twins g₀ p R (w.updateItem a f) (w'.updateItem b f) where
  catalog := h.catalog
  graph := h.graph.update hab f

/-- The same change of type on both sides. -/
theorem retype (h : Twins g₀ p R w w') (hab : R a b) (newType : TypeId) :
    Twins g₀ p R (w.retype a newType) (w'.retype b newType) where
  catalog := h.catalog
  graph := by
    show Graph.Twins g₀ p R _ (w'.graph.retype w'.catalog b newType)
    rw [h.catalog]
    exact h.graph.retype hab w.catalog newType

/-- The change of type that a record asks for, or none, on both sides. -/
theorem retyped (h : Twins g₀ p R w w') (hab : R a b) (newType : TypeId) :
    Twins g₀ p R (w.retyped a newType) (w'.retyped b newType) := by
  unfold World.retyped
  rw [h.graph.item?_eq hab]
  split_ifs
  · exact h.retype hab newType
  · exact h

/-- The attributes of a record on both sides. -/
theorem updated (h : Twins g₀ p R w w') (hab : R a b) (r : Record) :
    Twins g₀ p R (w.updated a r) (w'.updated b r) := by
  unfold World.updated
  rw [h.catalog]
  exact h.updateItem hab _

/-- The time of both items begins to run. -/
theorem enlist (h : Twins g₀ p R w w') (hab : R a b) :
    Twins g₀ p R (w.enlist a) (w'.enlist b) :=
  (h.updateItem hab (·.setDecayState .running)).of_graph rfl rfl rfl rfl

/-- Both items go, or both are refused. -/
theorem vanish (h : Twins g₀ p R w w') (hab : R a b) :
    Twins g₀ p R (w.vanish a) (w'.vanish b) := by
  rw [vanish_eq, vanish_eq]
  rcases h.graph.detach hab with ⟨e, hRefused, hRefused'⟩ | ⟨_, _, g, g', hDone, hDone', hGraph⟩
  · rw [hRefused, hRefused']
    exact h
  · rw [hDone, hDone']
    exact ⟨h.catalog, hGraph⟩

/-- Paired items are of the same type. -/
theorem typeOf?_eq (h : Twins g₀ p R w w') (hab : R a b) : w'.typeOf? b = w.typeOf? a := by
  unfold typeOf?
  rw [h.graph.item?_eq hab, h.catalog]

/-- The time of paired items may start for both or for neither. -/
theorem mayStart_eq (h : Twins g₀ p R w w') (hab : R a b) : w'.mayStart b = w.mayStart a := by
  unfold mayStart
  rw [h.typeOf?_eq hab, h.graph.item?_eq hab]

/-- Paired items have the same time left. -/
theorem durationOf_eq (h : Twins g₀ p R w w') (hab : R a b) :
    w'.durationOf b = w.durationOf a := by
  unfold durationOf
  rw [h.graph.item?_eq hab]

/-- Paired items come to the same end. -/
theorem finishDecay (h : Twins g₀ p R w w') (hab : R a b) :
    Twins g₀ p R (w.finishDecay a) (w'.finishDecay b) := by
  have hTarget : w'.decayTarget? b = w.decayTarget? a := by
    unfold decayTarget?
    rw [h.typeOf?_eq hab, h.catalog]
  unfold World.finishDecay
  rw [hTarget]
  -- Both go, or both become the same and may run on.
  cases w.decayTarget? a with
  | none => exact h.vanish hab
  | some target =>
    have hWoken : Twins g₀ p R ((w.retype a target).wake a) ((w'.retype b target).wake b) :=
      (h.retype hab target).of_graph (catalog_wake _ _) (catalog_wake _ _) (graph_wake _ _)
        (graph_wake _ _)
    dsimp only
    rw [hWoken.durationOf_eq hab, hWoken.mayStart_eq hab]
    split
    · exact hWoken.enlist hab
    · exact hWoken

/-- The time of paired items starts in step, or ends at once for both. -/
theorem startDecay (h : Twins g₀ p R w w') (hab : R a b) :
    Twins g₀ p R (w.startDecay a) (w'.startDecay b) := by
  unfold World.startDecay
  rw [h.mayStart_eq hab, h.durationOf_eq hab]
  split
  · exact h
  · split
    · exact h.finishDecay hab
    · exact h.enlist hab

/-- Registering keeps the pairing at each level: the item first, then what lies in it, in order. -/
theorem registerWithin (levels : Nat) (h : Twins g₀ p R w w') (hab : R a b) :
    Twins g₀ p R (World.registerWithin levels w a) (World.registerWithin levels w' b) := by
  induction levels generalizing w w' a b with
  | zero => exact h
  | succ levels ih =>
    rw [World.registerWithin, World.registerWithin]
    -- The register of sleepers is no part of the graph.
    have hNoted : ∀ x y, Twins g₀ p R (w.setSleeper a x) (w'.setSleeper b y) := fun x y =>
      h.of_graph (catalog_setSleeper _ _ _) (catalog_setSleeper _ _ _) (graph_setSleeper _ _ _)
        (graph_setSleeper _ _ _)
    have hStarted := (hNoted (((w.graph.item? a).map (·.variant.sleeper)).getD 0)
      (((w'.graph.item? b).map (·.variant.sleeper)).getD 0)).startDecay hab
    exact List.rel_foldl (P := Twins g₀ p R) (R := R) (fun _ _ hTwins _ _ hInner => ih hTwins hInner)
      hStarted (hStarted.graph.contents (.item hab))

/-- **Paired items are registered in step.** -/
theorem register (h : Twins g₀ p R w w') (hw : w.graph.Consistent) (hw' : w'.graph.Consistent)
    (hab : R a b) : Twins g₀ p R (w.register a) (w'.register b) := by
  -- The two walks are made with the same number of levels.
  rw [register_eq hw a (Nat.le_max_left w.graph.size w'.graph.size),
    register_eq hw' b (Nat.le_max_right w.graph.size w'.graph.size)]
  exact h.registerWithin _ hab

/-- **The same trees are on the tile.** -/
theorem treesOn_eq (h : Twins g₀ p R w w') (hw : w.Sound) (hw' : w'.Sound) :
    w'.treesOn p = w.treesOn p :=
  hw'.consistent.filterMap_tree?_eq
    (h.graph.showsAll _ _ _ h.graph.contents_tile (hw.shows_treesOn p))

end Twins

end World

/-! ## §4. Contents in step. -/

namespace Graph

variable {g₀ g g' g₁ g₁' : Graph} {p : Position} {R : Pairing} {a b : ItemId}

/-- Emptying paired containers. -/
theorem Twins.emptyOut (h : Twins g₀ p R g g') (hab : R a b)
    (hEmpty : World.emptyOut g a = (.ok (), g₁)) (hEmpty' : World.emptyOut g' b = (.ok (), g₁')) :
    Twins g₀ p R g₁ g₁' := by
  unfold World.emptyOut at hEmpty hEmpty'
  have hLists := h.contents (.item hab)
  generalize g.contents (.item a) = ids at hEmpty hLists
  generalize g'.contents (.item b) = ids' at hEmpty' hLists
  -- By induction on what they hold, which is taken out one by one and in pairs.
  induction hLists generalizing g g' with
  | nil =>
    obtain rfl := (Prod.mk.inj hEmpty).2
    obtain rfl := (Prod.mk.inj hEmpty').2
    exact h
  | cons hChild _ ih =>
    rw [World.takeOut, tryRemove_eq] at hEmpty hEmpty'
    rcases h.remove hChild (.item hab) with ⟨hRefused, _⟩ | ⟨g₂, g₂', hRemove, hRemove', hTwins⟩
    · rw [hRefused] at hEmpty
      cases hEmpty
    · rw [hRemove] at hEmpty
      rw [hRemove'] at hEmpty'
      exact ih hTwins hEmpty hEmpty'

variable {c : Catalog}

/-- **Filling paired containers with the same records.** -/
theorem Twins.fillAll (rs : List Record) : ∀ {R : Pairing} {g g' : Graph} {tally tally' tally₁ : Tally},
    Twins g₀ p R g g' → R a b →
    Record.fillAll c a rs g tally = (.ok (), tally', g₁) →
    Record.fillAll c b rs g' tally = (.ok (), tally₁, g₁') →
    tally₁ = tally' ∧ ∃ R', R ≤ R' ∧ Twins g₀ p R' g₁ g₁' := by
  induction rs with
  | nil =>
    intro R g g' tally tally' tally₁ h _ hFill hFill'
    cases hFill
    cases hFill'
    exact ⟨rfl, R, le_refl R, h⟩
  | cons r rs ih =>
    intro R g g' tally tally' tally₁ h hab hFill hFill'
    rw [fillAll_cons] at hFill hFill'
    -- The record is built from the catalog alone, so it is the same on both sides.
    cases hBuilt : r.build c with
    | mk built more =>
      rw [hBuilt] at hFill hFill'
      cases built with
      | error e => cases hFill
      | ok o =>
        cases o with
        | none => exact ih (h.update hab _) hab hFill hFill'
        | some t =>
          obtain ⟨R₁, hR₁, hNew, hTwins⟩ := h.create t
          dsimp only at hFill hFill'
          cases hAdd : (g.create t).2.add (.item a) (g.create t).1 with
          | error e =>
            rw [hAdd] at hFill
            cases hFill
          | ok g₂ =>
            cases hAdd' : (g'.create t).2.add (.item b) (g'.create t).1 with
            | error e =>
              rw [hAdd'] at hFill'
              cases hFill'
            | ok g₂' =>
              rw [hAdd] at hFill
              rw [hAdd'] at hFill'
              have hContainer : R₁ a b := hR₁ a b hab
              -- The new trees are paired, and so are the containers that they are put into.
              have hAdded := hTwins.add hNew (.item hContainer) hAdd hAdd'
              obtain ⟨hTally, R₂, hR₂, hFilled⟩ :=
                ih (hAdded.update hContainer _) hContainer hFill hFill'
              exact ⟨hTally, R₂, le_trans hR₁ hR₂, hFilled⟩

/-- Filling paired containers from one record finds the same and keeps the pairing. -/
theorem Twins.fill {r : Record} {tally tally' : Tally} (h : Twins g₀ p R g g') (hab : R a b)
    (hFill : r.fill c g a = (.ok (), tally, g₁)) (hFill' : r.fill c g' b = (.ok (), tally', g₁')) :
    tally' = tally ∧ ∃ R', R ≤ R' ∧ Twins g₀ p R' g₁ g₁' := by
  unfold Record.fill at hFill hFill'
  cases hChildren : r.children with
  | none =>
    rw [hChildren] at hFill hFill'
    cases hFill
    cases hFill'
    exact ⟨rfl, R, le_refl R, h⟩
  | some rs =>
    rw [hChildren] at hFill hFill'
    dsimp only at hFill hFill'
    -- What is no container is refused, which has happened on neither side.
    split at hFill
    · cases hFill
    · split at hFill'
      · cases hFill'
      · exact Twins.fillAll rs (h.update hab _) hab hFill hFill'

end Graph

/-! ## §5. Records in step. -/

namespace World.Restoring

/-- Two rows that are being restored: the worlds are paired on their tile, so are the items that
have been given away, and the reports have grown by the same since they were `x` and `y`. -/
structure Twins (g₀ : Graph) (p : Position) (R : Graph.Pairing) (x y : LoadReport)
    (s s' : Restoring) : Prop where
  /-- The worlds are paired. -/
  world : World.Twins g₀ p R s.world s'.world
  /-- What has been given away is paired. -/
  claimed : List.Forall₂ R s.claimed s'.claimed
  /-- The reports have grown by the same. -/
  report : ∃ more, s.report = x + more ∧ s'.report = y + more

section Steps

variable {s s₁ : Restoring} {r : Record} {id : ItemId}

/-- Giving an item contents that are not refused: there are none to give, or the item is emptied and
filled. -/
theorem replaceContents_eq_ok (h : replaceContents id r s = (.ok (), s₁)) :
    r.children = none ∧ s₁ = s
      ∨ ∃ rs g tally g₁, r.children = some rs ∧ emptyOut s.world.graph id = (.ok (), g)
        ∧ r.fill s.world.catalog g id = (.ok (), tally, g₁)
        ∧ s₁ = ({ s with world := { s.world with graph := g₁ } }).count tally := by
  unfold replaceContents at h
  -- Only contents on record are put back, and emptying comes first.
  cases hChildren : r.children with
  | none =>
    rw [hChildren] at h
    cases h
    exact .inl ⟨rfl, rfl⟩
  | some rs =>
    rw [hChildren] at h
    dsimp only at h
    cases hEmpty : emptyOut s.world.graph id with
    | mk emptied g =>
      rw [hEmpty] at h
      cases emptied with
      | error e => cases h
      | ok _ =>
        obtain ⟨hResult, rfl⟩ := Prod.mk.inj h
        exact .inr ⟨rs, g, _, _, rfl, rfl, Prod.ext hResult rfl, rfl⟩

/-- A world stays sound when the contents of an item are replaced from a record. -/
theorem sound_of_replaceContents (hs : s.world.Sound)
    (h : replaceContents id r s = (.ok (), s₁)) : s₁.world.Sound := by
  have hChanges := (changes_replaceContents (A := anyBinding) (r := r) hs id).1
  rw [h] at hChanges
  exact hChanges.sound hs

/-- What a record adds to the report when it is let go. -/
def lost (c : Catalog) (r : Record) : LoadReport :=
  match r.build c with
  | (.error _, _) => { throwaway := 1 }
  | (.ok _, tally) => { throwaway := 1, items := .letGo (tally.created + tally.discarded) }

/-- A record that is let go adds what is lost with it to the report, and nothing else. -/
theorem report_throwAway (r : Record) (s : Restoring) :
    (throwAway r s).2.report = s.report + lost s.world.catalog r := by
  unfold throwAway
  dsimp only
  split
  next hBuilt =>
    rw [lost, hBuilt]
    rfl
  next hBuilt =>
    rw [lost, hBuilt]
    -- A character who is let go is noted, and has no part in the report.
    split
    · rfl
    · rfl

end Steps

namespace Twins

variable {g₀ : Graph} {p : Position} {R R' : Graph.Pairing} {a b : ItemId} {x y : LoadReport}
  {s s' s₁ s₁' : Restoring} {r : Record}

/-- What has been given away stays so, and the reports grow by the same again. -/
theorem step (h : Twins g₀ p R x y s s') (more : LoadReport) (hR : R ≤ R')
    (hWorld : World.Twins g₀ p R' s₁.world s₁'.world) (hClaimed : s₁.claimed = s.claimed)
    (hClaimed' : s₁'.claimed = s'.claimed) (hReport : s₁.report = s.report + more)
    (hReport' : s₁'.report = s'.report + more) : Twins g₀ p R' x y s₁ s₁' where
  world := hWorld
  claimed := by
    rw [hClaimed, hClaimed']
    exact h.claimed.imp hR
  report := by
    obtain ⟨before, hs, hs'⟩ := h.report
    refine ⟨before + more, ?_, ?_⟩
    · rw [hReport, hs, add_assoc]
    · rw [hReport', hs', add_assoc]

/-- **Records go to items of the map that are paired.** -/
theorem firstFree? (h : Twins g₀ p R x y s s') (property : Item → Bool) :
    Option.Rel R (s.world.firstFree? p s.claimed property)
      (s'.world.firstFree? p s'.claimed property) := by
  unfold World.firstFree?
  refine Graph.rel_find? ?_ ?_
  · intro i j hij
    rw [h.world.graph.item?_eq hij]
  · refine List.rel_filter ?_ h.world.graph.contents_tile
    intro i j hij
    have hMem := List.rel_mem h.world.graph.unique hij h.claimed
    simp only [Bool.not_eq_true', List.contains_eq_mem, decide_eq_false_iff_not]
    exact not_congr hMem

/-- Either no fixture is free on both tiles, or the first free ones are paired. -/
theorem fixture? (h : Twins g₀ p R x y s s') (typeId : TypeId) :
    Option.Rel R (s.world.fixture? p s.claimed typeId) (s'.world.fixture? p s'.claimed typeId) := by
  unfold World.fixture?
  rw [h.world.catalog]
  -- First by the type, and then, for a type that is known, by the kind.
  rcases Graph.rel_cases (h.firstFree? (·.typeId == typeId)) with
    ⟨hNone, hNone'⟩ | ⟨i, j, hFound, hFound', hij⟩
  · rw [hNone, hNone']
    dsimp only
    split
    next => exact .none
    next =>
      split_ifs
      · exact h.firstFree? (·.isDoor)
      · exact h.firstFree? (·.isBed)
      · exact .none
  · rw [hFound, hFound']
    exact .some hij

/-- A record that makes something that moves. -/
theorem placeMoveable (h : Twins g₀ p R x y s s') (hs : s.world.Sound) (hs' : s'.world.Sound)
    (hFits : r.Fits s.world.catalog) :
    ∃ R', Twins g₀ p R' x y (placeMoveable p r s).2 (placeMoveable p r s').2 := by
  obtain ⟨o, tally, hBuilt⟩ := Record.build_of_fits r hFits
  have hBuilt' : r.build s'.world.catalog = (.ok o, tally) := by rw [h.world.catalog, hBuilt]
  have hReport : ∀ s : Restoring, (s.count tally).report = s.report + { items := tally } :=
    fun _ => rfl
  cases o with
  | none =>
    refine ⟨R, ?_⟩
    unfold Restoring.placeMoveable
    rw [hBuilt, hBuilt']
    exact h.step _ (le_refl R) h.world rfl rfl (hReport s) (hReport s')
  | some t =>
    -- The tree is made and put on the tile on both sides, with new numbers that are paired.
    have hTree := Record.hollow_of_build r t (by rw [hBuilt])
    have hTile := h.world.graph.isSome_tile?
    have hAdd := hs.consistent.add_onTile hTree hTile.1
    have hAdd' := hs'.consistent.add_onTile hTree hTile.2
    obtain ⟨R', hR, hNew, hCreated⟩ := h.world.graph.create t
    refine ⟨R', ?_⟩
    rw [placeMoveable_eq hs hTile.1 hBuilt, placeMoveable_eq hs' hTile.2 hBuilt']
    refine h.step _ hR ?_ rfl rfl (hReport s) (hReport s')
    refine World.Twins.register ⟨h.world.catalog, hCreated.add hNew .tile hAdd hAdd'⟩ ?_ ?_ hNew
    · exact (hs.consistent.create hTree).add hAdd
    · exact (hs'.consistent.create hTree).add hAdd'

/-- Contents for paired items. -/
theorem replaceContents (h : Twins g₀ p R x y s s') (hab : R a b)
    (hReplace : replaceContents a r s = (.ok (), s₁))
    (hReplace' : replaceContents b r s' = (.ok (), s₁')) :
    ∃ R', R ≤ R' ∧ Twins g₀ p R' x y s₁ s₁' := by
  rcases replaceContents_eq_ok hReplace with
    ⟨hNone, rfl⟩ | ⟨rs, g, tally, g₁, hrs, hEmpty, hFill, rfl⟩
  · rcases replaceContents_eq_ok hReplace' with ⟨_, rfl⟩ | ⟨rs, _, _, _, hrs, _⟩
    · exact ⟨R, le_refl R, h⟩
    · rw [hNone] at hrs
      cases hrs
  · rcases replaceContents_eq_ok hReplace' with
      ⟨hNone, _⟩ | ⟨_, g', tally', g₁', _, hEmpty', hFill', rfl⟩
    · rw [hNone] at hrs
      cases hrs
    · -- Both are emptied, and filled from the same record in the same catalog.
      rw [h.world.catalog] at hFill'
      have hEmptied := h.world.graph.emptyOut hab hEmpty hEmpty'
      obtain ⟨rfl, R', hR, hFilled⟩ := hEmptied.fill hab hFill hFill'
      exact ⟨R', hR, h.step { items := tally' } hR ⟨h.world.catalog, hFilled⟩ rfl rfl rfl rfl⟩

/-- A record for paired items of the map. -/
theorem bindFixture (h : Twins g₀ p R x y s s') (hs : s.world.Sound) (hs' : s'.world.Sound)
    (hab : R a b) (hBind : bindFixture a r s = (.ok (), s₁))
    (hBind' : bindFixture b r s' = (.ok (), s₁')) : ∃ R', Twins g₀ p R' x y s₁ s₁' := by
  obtain ⟨s₀, hReplace, rfl⟩ := bindFixture_eq_ok hBind
  obtain ⟨s₀', hReplace', rfl⟩ := bindFixture_eq_ok hBind'
  -- The fields are made to the items, then they get their contents.
  have hUpdated : Twins g₀ p R x y { s with world := s.world.updated a r }
      { s' with world := s'.world.updated b r } :=
    h.step 0 (le_refl R) (h.world.updated hab r) rfl rfl rfl rfl
  obtain ⟨R', hR, hFilled⟩ := hUpdated.replaceContents hab hReplace hReplace'
  have hab' : R' a b := hR a b hab
  -- Last they get the type, and their time starts.
  have hSound := sound_of_replaceContents ((keeps_updated s.world a r).sound hs) hReplace
  have hSound' := sound_of_replaceContents ((keeps_updated s'.world b r).sound hs') hReplace'
  have hRegistered := (hFilled.world.retyped hab' r.typeId).register
    ((keeps_retyped s₀.world a r.typeId).sound hSound).consistent
    ((keeps_retyped s₀'.world b r.typeId).sound hSound').consistent hab'
  obtain ⟨more, hMore, hMore'⟩ := hFilled.report
  refine ⟨R', hRegistered, ?_, more + { matched := 1 }, ?_, ?_⟩
  · exact List.rel_append hFilled.claimed (.cons hab' .nil)
  · rw [← add_assoc, ← hMore]
    rfl
  · rw [← add_assoc, ← hMore']
    rfl

/-- A record that no item of the map is left for. -/
theorem throwAway (h : Twins g₀ p R x y s s') (r : Record) :
    Twins g₀ p R x y (throwAway r s).2 (throwAway r s').2 := by
  obtain ⟨hGraph, hCatalog, hClaimed⟩ := graph_throwAway r s
  obtain ⟨hGraph', hCatalog', hClaimed'⟩ := graph_throwAway r s'
  have hWorld := h.world.of_graph hCatalog hCatalog' hGraph hGraph'
  have hReport := report_throwAway r s
  have hReport' := report_throwAway r s'
  rw [h.world.catalog] at hReport'
  exact h.step _ (le_refl R) hWorld hClaimed hClaimed' hReport hReport'

/-- **Bringing back a record in step.** -/
theorem place (h : Twins g₀ p R x y s s') (hs : s.world.Sound) (hs' : s'.world.Sound)
    (hFits : r.Fits s.world.catalog) :
    ∃ R', Twins g₀ p R' x y (place p r s).2 (place p r s').2 := by
  have hTile := h.world.graph.isSome_tile?
  have hFits' : r.Fits s'.world.catalog := by
    rw [h.world.catalog]
    exact hFits
  have hSame : moves? s'.world.catalog r = moves? s.world.catalog r := by
    rw [h.world.catalog]
  cases hMoves : moves? s.world.catalog r with
  | none =>
    rw [place_of_unknown hMoves, place_of_unknown (hSame.trans hMoves)]
    exact ⟨R, h.step { items := .letGo r.total } (le_refl R) h.world rfl rfl rfl rfl⟩
  | some moves =>
    cases moves with
    | true =>
      rw [place_of_moves hMoves, place_of_moves (hSame.trans hMoves)]
      exact h.placeMoveable hs hs' hFits
    | false =>
      rcases Graph.rel_cases (h.fixture? r.typeId) with
        ⟨hNone, hNone'⟩ | ⟨a, b, hFound, hFound', hab⟩
      · rw [place_of_no_fixture hMoves hNone, place_of_no_fixture (hSame.trans hMoves) hNone']
        exact ⟨R, h.throwAway r⟩
      · -- Giving the items what the record says is refused to neither.
        obtain ⟨s₁, hPlace, _⟩ := place_of_fits hs hTile.1 hFits
        obtain ⟨s₁', hPlace', _⟩ := place_of_fits hs' hTile.2 hFits'
        rw [hPlace, hPlace']
        rw [place_of_fixture hMoves hFound] at hPlace
        rw [place_of_fixture (hSame.trans hMoves) hFound'] at hPlace'
        exact h.bindFixture hs hs' hab hPlace hPlace'

/-- **The records of a row in step**, up to the first that cannot be read. -/
theorem placeAll (house : UInt32) (total left : Nat) :
    ∀ {R : Graph.Pairing} {s s' : Restoring} (reader : Reader), Twins g₀ p R x y s s' →
      s.world.Sound → s'.world.Sound →
      ∃ R', Twins g₀ p R' x y (placeAll house p total left reader s)
        (placeAll house p total left reader s') := by
  induction left with
  | zero => exact fun {R _ _} _ h _ _ => ⟨R, h⟩
  | succ left ih =>
    intro R s s' reader h hs hs'
    unfold Restoring.placeAll
    rw [h.world.catalog]
    cases hDecode : Record.decode s.world.catalog reader with
    | error failure =>
      exact ⟨R, h.step { failed := 1 } (le_refl R) h.world rfl rfl rfl rfl⟩
    | ok decoded =>
      obtain ⟨record, rest⟩ := decoded
      have hTile := h.world.graph.isSome_tile?
      have hFits := Record.fits_of_decode hDecode
      obtain ⟨R', hPlaced⟩ := h.place hs hs' hFits
      obtain ⟨s₁, hPlace, hKept⟩ := place_of_fits hs hTile.1 hFits
      obtain ⟨s₁', hPlace', hKept'⟩ := place_of_fits hs' hTile.2 (by rw [h.world.catalog]; exact hFits)
      -- A decoded record is placed in both worlds, so neither row ends here.
      rw [hPlace, hPlace'] at hPlaced
      dsimp only
      rw [hPlace, hPlace']
      exact ih rest hPlaced (hKept.keeps.sound hs) (hKept'.keeps.sound hs')

end Twins

end World.Restoring

end Homestead
