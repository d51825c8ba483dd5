/-
  Homestead.Proofs.World.Register
  ───────────────────────────────
  **THE TIME OF LOADED ITEMS STARTS.**

  A loaded item is registered with all that it holds: the time of each one
  starts.  An item without time left is finished on the spot and may become
  another one, or be gone with what it holds.  As long as all items have
  time left nothing like that happens, and the items differ afterwards in
  where they stand in their decay only.

  Main results:
    * `Item.Restored.of_alike` — to say what came back, the state of decay
      does not count;
    * `Started` — what the start of time changes;
    * `started_register` — registering an item with all that it holds.
-/
import Homestead.Proofs.Graph.Items
import Homestead.Proofs.Graph.Regions
import Homestead.Proofs.Record.Time
import Homestead.Proofs.World.Sound

namespace Homestead

namespace Item

variable {c : Catalog} {i i' i'' : Item}

/-! ## §1. Items that are alike. -/

/-- The items differ in where they stand in their decay at most. -/
structure Alike (i i' : Item) : Prop where
  /-- The type is the same. -/
  typeId : i'.typeId = i.typeId
  /-- The count is the same. -/
  count : i'.count = i.count
  /-- The variant is the same. -/
  variant : i'.variant = i.variant
  /-- All attributes but one are the same. -/
  entry : ∀ k, k ≠ .decayState → i'.entry k = i.entry k

theorem Alike.refl (i : Item) : i.Alike i :=
  ⟨rfl, rfl, rfl, fun _ _ => rfl⟩

/-- Two changes of where an item stands in its decay are one such change. -/
theorem Alike.trans (h : i.Alike i') (h' : i'.Alike i'') : i.Alike i'' where
  typeId := h'.typeId.trans h.typeId
  count := h'.count.trans h.count
  variant := h'.variant.trans h.variant
  entry k hk := (h'.entry k hk).trans (h.entry k hk)

/-- An item whose state of decay is set is alike to what it was. -/
theorem alike_setDecayState (i : Item) (s : DecayState) : i.Alike (i.setDecayState s) where
  typeId := rfl
  count := rfl
  variant := rfl
  entry k hk := by
    rw [setDecayState, entry_setNumber, if_neg]
    exact fun h => hk h.1

/-- Items that are alike have the same numbers, but for the state of decay. -/
theorem Alike.number (h : i.Alike i') {k : Kind} (hk : k ≠ .decayState) :
    i'.number k = i.number k :=
  number_eq_of_entry (h.entry k hk)

/-- Items that are alike have the same time left. -/
theorem Alike.lasting (h : i.Alike i') (hLasting : i.Lasting c) : i'.Lasting c :=
  hLasting.of_time h.typeId (h.entry .duration (by decide))

/-- Items that are alike have the same sub type. -/
theorem Alike.subType (h : i.Alike i') : i'.subType c = i.subType c := by
  have hMeaning : i'.meaning c = i.meaning c := by rw [meaning, meaning, h.typeId]
  unfold Item.subType
  rw [hMeaning]
  cases i.meaning c with
  | count => exact congrArg UInt8.toUInt16 h.count
  | fluid => exact congrArg clampU16 (h.number (by decide))
  | charges => exact congrArg clampU16 (h.number (by decide))

/-- **To say what came back, the state of decay does not count.** -/
theorem Restored.of_alike {t : ItemType} {old : Item} (hRestored : Restored c t old i)
    (h : i.Alike i') : Restored c t old i' where
  typeId := h.typeId.trans hRestored.typeId
  -- None of the kinds that come back is the state of decay, which alone may differ.
  number k low high hk := by
    have hne : k ≠ .decayState := by
      rintro rfl
      cases hk
    rw [h.number hne, hRestored.number k low high hk]
  text k hk := by
    have hne : k ≠ .decayState := by
      rintro rfl
      cases hk
    rw [text_eq_of_entry (h.entry k hne)]
    exact hRestored.text k hk
  script k hk := by
    have hne : k ≠ .decayState := by
      rintro rfl
      rcases hk with hk | hk <;> cases hk
    rw [h.number hne, hRestored.script k hk]
  duration := (h.number (by decide)).trans hRestored.duration
  doorId := (h.number (by decide)).trans hRestored.doorId
  corpseOwner := (h.number (by decide)).trans hRestored.corpseOwner
  variant := h.variant.trans hRestored.variant
  subType := h.subType.trans hRestored.subType
  charges hk := (h.number (by decide)).trans (hRestored.charges hk)
  fluid hk := (h.number (by decide)).trans (hRestored.fluid hk)
  count hk := h.count.trans (hRestored.count hk)

end Item

namespace Graph

variable {g g' g'' : Graph}

/-! ## §2. Graphs that are alike. -/

/-- `g'` is `g` but for where items stand in their decay. -/
structure Wound (g g' : Graph) : Prop where
  /-- Links and lists are the same. -/
  links : SameLinks g g'
  /-- Items are alike. -/
  alike : ∀ j i, g.item? j = some i → ∃ i', g'.item? j = some i' ∧ i.Alike i'

theorem Wound.refl (g : Graph) : Wound g g where
  links := ⟨fun _ => rfl, fun _ => rfl, rfl⟩
  alike _ i hi := ⟨i, hi, .refl i⟩

/-- What is wound twice is wound. -/
theorem Wound.trans (h : Wound g g') (h' : Wound g' g'') : Wound g g'' where
  links :=
    ⟨fun p => (h'.links.tile p).trans (h.links.tile p),
      fun j => (h'.links.node j).trans (h.links.node j), h'.links.next.trans h.links.next⟩
  alike j i hi := by
    obtain ⟨i', hi', hAlike⟩ := h.alike j i hi
    obtain ⟨i'', hi'', hAlike'⟩ := h'.alike j i' hi'
    exact ⟨i'', hi'', hAlike.trans hAlike'⟩

/-- The items of a graph that is wound lie where they lay. -/
theorem Wound.lies (h : Wound g g') : g'.Lies = g.Lies := by
  funext inner outer
  rw [Lies, Lies, h.links.contents_eq]

/-- The holders of a graph that is wound hold what they held. -/
theorem Wound.contents_eq (h : Wound g g') (holder : Holder) :
    g'.contents holder = g.contents holder :=
  h.links.contents_eq holder

/-- Every item is one that was there, but for where it stands in its decay. -/
theorem Wound.of_item? (h : Wound g g') {j : ItemId} {i' : Item} (hi' : g'.item? j = some i') :
    ∃ i, g.item? j = some i ∧ i.Alike i' := by
  obtain ⟨n', hn', rfl⟩ := Option.map_eq_some_iff.1 hi'
  obtain ⟨n, hn, _⟩ := h.links.node_eq hn'
  have hi : g.item? j = some n.item := by rw [item?, hn, Option.map_some]
  obtain ⟨i'', hi'', hAlike⟩ := h.alike j n.item hi
  obtain rfl := Option.some_inj.1 (hi'.symm.trans hi'')
  exact ⟨n.item, hi, hAlike⟩

/-- What does not depend on the state of decay stays true throughout an item. -/
theorem Wound.allWithin {P : Item → Prop} (h : Wound g g')
    (hP : ∀ i i', i.Alike i' → P i → P i') {id : ItemId} (hWithin : g.AllWithin P id) :
    g'.AllWithin P id := by
  intro j i' hReach hi'
  obtain ⟨i, hi, hAlike⟩ := h.of_item? hi'
  rw [Reaches, h.lies] at hReach
  exact hP i i' hAlike (hWithin j i hReach hi)

mutual

/-- The trees of graphs that are alike have items that are alike. -/
theorem Shows.wound (h : Wound g g') : ∀ (t : ItemTree) (id : ItemId), g.Shows id t →
    ∃ t', g'.Shows id t' ∧ t.Related Item.Alike t'
  | .node i cs, id, ⟨n, hn, hItem, hAll⟩ => by
    obtain ⟨n', hn', _, hList⟩ := h.links.symm.node_eq hn
    have hi : g.item? id = some i := by rw [item?, hn, Option.map_some, hItem]
    obtain ⟨i', hi', hAlike⟩ := h.alike id i hi
    rw [item?, hn', Option.map_some, Option.some_inj] at hi'
    obtain ⟨cs', hAll', hRelated⟩ := ShowsAll.wound h cs n.contents hAll
    exact ⟨.node i' cs', ⟨n', hn', hi', hList ▸ hAll'⟩, hAlike, hRelated⟩

/-- Items of a graph that is wound show trees that are alike, item by item. -/
theorem ShowsAll.wound (h : Wound g g') : ∀ (ts : List ItemTree) (ids : List ItemId),
    g.ShowsAll ids ts → ∃ ts', g'.ShowsAll ids ts' ∧ ItemTree.RelatedAll Item.Alike ts ts'
  | [], [], _ => ⟨[], trivial, trivial⟩
  | [], _ :: _, hShows => hShows.elim
  | _ :: _, [], hShows => hShows.elim
  | t :: ts, id :: ids, hShows => by
    obtain ⟨t', hHead, hRelated⟩ := Shows.wound h t id hShows.1
    obtain ⟨ts', hTail, hRelatedAll⟩ := ShowsAll.wound h ts ids hShows.2
    exact ⟨t' :: ts', ⟨hHead, hTail⟩, hRelated, hRelatedAll⟩

end

end Graph

namespace World

/-! ## §3. The start of time. -/

/-- `w'` is `w` once time has started for an item and for some of what lies in it. -/
structure Started (w w' : World) (id : ItemId) : Prop where
  /-- The catalog is the same. -/
  catalog : w'.catalog = w.catalog
  /-- Items differ in where they stand in their decay only. -/
  wound : Graph.Wound w.graph w'.graph
  /-- What does not lie in the item is as before. -/
  confined : ∀ (S : ItemId → Prop) (T : Position → Prop), w.graph.Region S → S id →
    Graph.Confined S T w.graph w'.graph

theorem Started.refl (w : World) (id : ItemId) : Started w w id where
  catalog := rfl
  wound := .refl _
  confined _ T hRegion _ := .refl hRegion T

/-- Time has started for nothing where the graph is the same. -/
theorem started_of_graph {w w' : World} (hCatalog : w'.catalog = w.catalog)
    (hGraph : w'.graph = w.graph) (id : ItemId) : Started w w' id where
  catalog := hCatalog
  wound := hGraph ▸ .refl _
  confined _ T hRegion _ := hGraph ▸ .refl hRegion T

/-- First time starts for an item, then for one that lies in it. -/
theorem Started.trans {w w' w'' : World} {id child : ItemId} (h : Started w w' id)
    (h' : Started w' w'' child) (hReach : w.graph.Reaches child id) : Started w w'' id where
  catalog := h'.catalog.trans h.catalog
  wound := h.wound.trans h'.wound
  confined S T hRegion hid := by
    have hFirst := h.confined S T hRegion hid
    exact hFirst.trans (h'.confined S T hFirst.region (hRegion.of_reaches hReach hid))

/-- Time starts for the item that is listed, and for nothing else. -/
theorem started_enlist (w : World) (id : ItemId) : Started w (w.enlist id) id where
  catalog := rfl
  wound := by
    refine ⟨Graph.sameLinks_update w.graph id (·.setDecayState .running), ?_⟩
    intro j i hi
    -- One item gets the state of decay, and no other is touched.
    by_cases hj : j = id
    · refine ⟨i.setDecayState .running, ?_, i.alike_setDecayState .running⟩
      show (w.graph.update id _).item? j = _
      rw [Graph.item?_update, if_pos hj, hi, Option.map_some]
    · refine ⟨i, ?_, .refl i⟩
      show (w.graph.update id _).item? j = _
      rw [Graph.item?_update, if_neg hj, hi]
  confined S T hRegion hid := Graph.confined_update hRegion hid (·.setDecayState .running)

/-- **The time of an item with time left starts**, and nothing else happens. -/
theorem started_startDecay {w : World} {id : ItemId}
    (hLasting : ∀ i, w.graph.item? id = some i → i.Lasting w.catalog) :
    Started w (w.startDecay id) id := by
  unfold startDecay
  split_ifs with hMay hOver
  · exact Started.refl w id
  · -- There would be no time left.
    rw [Bool.not_eq_true, Bool.not_eq_false'] at hMay
    obtain ⟨i, t, hi, ht, hDecays⟩ := mayStart_eq_true hMay
    rw [durationOf_of_item? hi] at hOver
    exact absurd (hLasting i hi t ht hDecays) (Int.not_lt.2 hOver)
  · exact started_enlist w id

/-- The item's sleeper is noted and its time started. -/
theorem started_registered {w : World} {id : ItemId}
    (hLasting : w.graph.AllWithin (Item.Lasting w.catalog) id) (sleeper : UInt32) :
    Started w ((w.setSleeper id sleeper).startDecay id) id := by
  have hGraph := graph_setSleeper w id sleeper
  have hCatalog := catalog_setSleeper w id sleeper
  refine (started_of_graph hCatalog hGraph id).trans (started_startDecay ?_) .refl
  intro i hi
  rw [hGraph] at hi
  rw [hCatalog]
  exact hLasting id i .refl hi

/-- Registering an item starts time in it and in what lies in it, by induction over the levels. -/
theorem started_registerWithin (levels : Nat) : ∀ {w : World} {id : ItemId},
    w.graph.AllWithin (Item.Lasting w.catalog) id →
    Started w (registerWithin levels w id) id := by
  induction levels with
  | zero => exact fun {w} {id} _ => Started.refl w id
  | succ levels ih =>
    intro w id hLasting
    rw [registerWithin]
    generalize ((w.graph.item? id).map (·.variant.sleeper)).getD 0 = sleeper
    have hHere := started_registered hLasting sleeper
    -- What is in the list lies in the item, before time starts for any of it and after.
    have hEach : ∀ (children : List ItemId) (w' : World), Started w w' id →
        (∀ child ∈ children, w.graph.Lies child id) →
        Started w (children.foldl (registerWithin levels) w') id := by
      intro children
      induction children with
      | nil => exact fun w' hStarted _ => hStarted
      | cons child children ihList =>
        intro w' hStarted hLies
        obtain ⟨hChild, hRest⟩ := List.forall_mem_cons.1 hLies
        have hWithin : w'.graph.AllWithin (Item.Lasting w'.catalog) child := by
          rw [hStarted.catalog]
          exact hStarted.wound.allWithin (fun _ _ hAlike => hAlike.lasting) (hLasting.inner hChild)
        exact ihList _ (hStarted.trans (ih hWithin) (.single hChild)) hRest
    refine hEach _ _ hHere ?_
    intro child hMem
    rwa [hHere.wound.contents_eq] at hMem

/-- **The time of an item and of all that it holds starts**, and nothing else happens, if they have
time left. -/
theorem started_register {w : World} {id : ItemId}
    (hLasting : w.graph.AllWithin (Item.Lasting w.catalog) id) : Started w (w.register id) id :=
  started_registerWithin w.graph.size hLasting

end World

end Homestead
