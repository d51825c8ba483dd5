/-
  Homestead.Proofs.World.DecayList
  ────────────────────────────────
  **THE LIST OF ITEMS WHOSE TIME RUNS.**

  Letting time pass empties the decay list and fills it again on the way:
  an item with time left is put back, and an item that is finished may put
  itself back as what it has become.  Nothing that is done for one item of
  the list reaches another one, so what becomes of an item is read off the
  item as it was before, and the list keeps its order.

  What an item on the list is like does not depend on the catalog: a type
  that decays to itself, or in a circle, puts its items on the list again
  and again, but every time as items with time left, and once.

  Main results:
    * `turns_startDecay`, `turns_finishDecay` — what becomes of one item;
    * `Timed.processDecay_eq` — one thing is done for every item of the list;
    * `Timed.item?_processDecay`, `Timed.decaying_processDecay` — what time
      leaves;
    * `Paced.keeps_the_list` — the list after any run of starts and of time.
-/
import Homestead.Proofs.World.Fates

namespace Homestead

namespace World

/-! ## §1. One item in its world. -/

variable (w : World) (id j : ItemId)

/-- The world in which an item is what it decays to, and nobody sleeps in what it was. -/
def decayed (target : TypeId) : World :=
  (w.retype id target).wake id

/-- An item that decays becomes another; the others stay as they are. -/
theorem item?_decayed (target : TypeId) : (w.decayed id target).graph.item? j
    = if j = id then (w.graph.item? j).map (·.become w.catalog target)
      else w.graph.item? j := by
  rw [decayed, graph_wake]
  exact Graph.item?_retype w.catalog id j target

theorem catalog_decayed (target : TypeId) : (w.decayed id target).catalog = w.catalog :=
  catalog_wake _ id

theorem decaying_decayed (target : TypeId) : (w.decayed id target).decaying = w.decaying := by
  unfold decayed wake
  dsimp only
  split_ifs <;> rfl

/-- An item that goes is not struck from the list. -/
theorem decaying_vanish : (w.vanish id).decaying = w.decaying :=
  rfl

theorem catalog_vanish : (w.vanish id).catalog = w.catalog :=
  rfl

/-- An item that is listed runs; the others stay as they are. -/
theorem item?_enlist : (w.enlist id).graph.item? j
    = if j = id then (w.graph.item? j).map (·.setDecayState .running) else w.graph.item? j :=
  Graph.item?_update id j _

/-- An item that is finished becomes what it decays to, and starts again if it then has
time left. -/
theorem finishDecay_of_target {w : World} {id : ItemId} {i : Item} {target : TypeId}
    (hi : w.graph.item? id = some i) (hTarget : i.decayTarget? w.catalog = some target) :
    w.finishDecay id = if (i.become w.catalog target).isReady w.catalog then
        (w.decayed id target).enlist id else w.decayed id target := by
  have hHere : w.decayTarget? id = some target := by
    rw [decayTarget?_eq, hi, Option.bind_some, hTarget]
  have hItem : (w.decayed id target).graph.item? id = some (i.become w.catalog target) := by
    rw [item?_decayed, if_pos rfl, hi, Option.map_some]
  -- What is asked of the world is what the new item says of itself.
  have hReady : (decide ((w.decayed id target).durationOf id > 0)
      && (w.decayed id target).mayStart id) = (i.become w.catalog target).isReady w.catalog := by
    rw [mayStart_eq, durationOf_of_item? hItem, hItem, catalog_decayed]
    rfl
  unfold finishDecay
  rw [hHere]
  show (if (decide ((w.decayed id target).durationOf id > 0)
    && (w.decayed id target).mayStart id) = true then _ else _) = _
  rw [hReady]
  rfl

/-- An item that decays to nothing is taken out of the world when it is finished. -/
theorem finishDecay_of_none {w : World} {id : ItemId}
    (h : ∀ i, w.graph.item? id = some i → i.decayTarget? w.catalog = none) :
    w.finishDecay id = w.vanish id := by
  have hHere : w.decayTarget? id = none := by
    rw [decayTarget?_eq, Option.bind_eq_none_iff]
    exact h
  unfold finishDecay
  rw [hHere]

/-- What is done for one item of a world: the item becomes `f` of what it was, and stands at the
end of the decay list if `p` holds of what it was. -/
structure Turns (f : Item → Item) (p : Item → Bool) (w : World) (id : ItemId) (w' : World) :
    Prop where
  /-- The catalog is the same. -/
  catalog : w'.catalog = w.catalog
  /-- The item is another one, and the others are as before. -/
  item? : ∀ j, w'.graph.item? j
    = if j = id then (w.graph.item? j).map f else w.graph.item? j
  /-- The item is added to the list, if it is added at all. -/
  decaying : w'.decaying = w.decaying ++ if (w.graph.item? id).any p then [id] else []

/-- An item that is not there is not changed. -/
theorem turns_of_none {w w' : World} {id : ItemId} (hNone : w.graph.item? id = none)
    (hCatalog : w'.catalog = w.catalog) (hItems : ∀ j, w'.graph.item? j = w.graph.item? j)
    (hList : w'.decaying = w.decaying) (f : Item → Item) (p : Item → Bool) :
    Turns f p w id w' where
  catalog := hCatalog
  item? j := by
    rw [hItems]
    split_ifs with hj
    · rw [hj, hNone, Option.map_none]
    · rfl
  decaying := by
    rw [hList, hNone]
    exact (List.append_nil _).symm

/-- An item that is there. -/
theorem turns_of_some {w w' : World} {id : ItemId} {i : Item} (hi : w.graph.item? id = some i)
    {f : Item → Item} {p : Item → Bool} (hCatalog : w'.catalog = w.catalog)
    (hHere : w'.graph.item? id = some (f i))
    (hOthers : ∀ j, j ≠ id → w'.graph.item? j = w.graph.item? j)
    (hList : w'.decaying = w.decaying ++ if p i then [id] else []) : Turns f p w id w' where
  catalog := hCatalog
  item? j := by
    split_ifs with hj
    · rw [hj, hHere, hi, Option.map_some]
    · exact hOthers j hj
  decaying := by rw [hList, hi, Option.any_some]

/-- **What becomes of an item that is finished.** -/
theorem turns_finishDecay :
    Turns (·.finished w.catalog) (·.startsAgain w.catalog) w id (w.finishDecay id) := by
  cases hi : w.graph.item? id with
  | none =>
    rw [finishDecay_of_none (by rw [hi]; exact fun _ h => by cases h)]
    exact turns_of_none hi (catalog_vanish w id) (item?_vanish w id) (decaying_vanish w id) _ _
  | some i =>
    -- With nothing to turn into the item vanishes, and nothing is listed.
    cases hTarget : i.decayTarget? w.catalog with
    | none =>
      rw [finishDecay_of_none (by rw [hi]; exact fun _ h => Option.some_inj.1 h ▸ hTarget)]
      refine turns_of_some hi (catalog_vanish w id) ?_ (fun j _ => item?_vanish w id j) ?_
      · rw [item?_vanish, hi, Item.finished, hTarget]
      · rw [decaying_vanish, Item.startsAgain, hTarget]
        exact (List.append_nil _).symm
    | some target =>
      have hBecome : (w.decayed id target).graph.item? id
          = some (i.become w.catalog target) := by
        rw [item?_decayed, if_pos rfl, hi, Option.map_some]
      have hOthers : ∀ j, j ≠ id → (w.decayed id target).graph.item? j = w.graph.item? j :=
        fun j hj => by rw [item?_decayed, if_neg hj]
      rw [finishDecay_of_target hi hTarget]
      -- What it has become starts at once, or is left to itself.
      by_cases hReady : (i.become w.catalog target).isReady w.catalog = true
      · rw [if_pos hReady]
        refine turns_of_some hi (catalog_decayed w id target) ?_ ?_ ?_
        · rw [item?_enlist, if_pos rfl, hBecome, Option.map_some, Item.finished, hTarget]
          dsimp only
          rw [if_pos hReady]
        · intro j hj
          rw [item?_enlist, if_neg hj, hOthers j hj]
        · show (w.decayed id target).decaying ++ [id] = _
          rw [decaying_decayed, Item.startsAgain, hTarget, Option.any_some, if_pos hReady]
      · rw [if_neg hReady]
        refine turns_of_some hi (catalog_decayed w id target) ?_ hOthers ?_
        · rw [hBecome, Item.finished, hTarget]
          dsimp only
          rw [if_neg hReady]
        · rw [decaying_decayed, Item.startsAgain, hTarget, Option.any_some, if_neg hReady,
            List.append_nil]

/-- **What becomes of an item whose time is started.** -/
theorem turns_startDecay :
    Turns (·.started w.catalog) (·.isEnlisted w.catalog) w id (w.startDecay id) := by
  have hMay := mayStart_eq w id
  unfold startDecay
  cases hi : w.graph.item? id with
  | none =>
    rw [hi] at hMay
    rw [if_pos (by rw [hMay]; rfl)]
    exact turns_of_none hi rfl (fun _ => rfl) rfl _ _
  | some i =>
    rw [hi, Option.any_some] at hMay
    rw [hMay, durationOf_of_item? hi]
    by_cases hStarts : i.mayStart w.catalog = true
    · rw [if_neg (by rw [hStarts]; decide)]
      -- An item without any time left is finished instead, and may be on the list for what it is
      -- then.
      by_cases hOver : i.duration ≤ 0
      · have hFinished := turns_finishDecay w id
        have hStarted : i.started w.catalog = i.finished w.catalog := by
          rw [Item.started, if_neg (by rw [hStarts]; decide), if_pos hOver]
        have hEnlisted : i.isEnlisted w.catalog = i.startsAgain w.catalog := by
          rw [Item.isEnlisted, hStarts, decide_eq_false (by omega)]
          rfl
        rw [if_pos hOver]
        refine turns_of_some hi hFinished.catalog ?_ ?_ ?_
        · rw [hFinished.item?, if_pos rfl, hi, Option.map_some, hStarted]
        · exact fun j hj => by rw [hFinished.item?, if_neg hj]
        · rw [hFinished.decaying, hi, Option.any_some, hEnlisted]
      · rw [if_neg hOver]
        refine turns_of_some hi rfl ?_ ?_ ?_
        · rw [item?_enlist, if_pos rfl, hi, Option.map_some, Item.started,
            if_neg (by rw [hStarts]; decide), if_neg hOver]
        · exact fun j hj => by rw [item?_enlist, if_neg hj]
        · show w.decaying ++ [id] = _
          rw [Item.isEnlisted, hStarts, decide_eq_true (by omega)]
          rfl
    · have hNot : i.mayStart w.catalog = false := Bool.eq_false_iff.2 hStarts
      rw [if_pos (by rw [hNot]; rfl)]
      refine turns_of_some hi rfl ?_ (fun _ _ => rfl) ?_
      · rw [hi, Item.started, if_pos (by rw [hNot]; rfl)]
      · rw [Item.isEnlisted, hNot]
        exact (List.append_nil _).symm

/-! ## §2. All items of the list. -/

/-- What is done for some items of a world, one after the other. -/
structure TurnsAll (f : Item → Item) (p : Item → Bool) (w : World) (ids : List ItemId) (w' : World) :
    Prop where
  /-- The catalog is the same. -/
  catalog : w'.catalog = w.catalog
  /-- These items are others, and the others are as before. -/
  item? : ∀ j, w'.graph.item? j
    = if j ∈ ids then (w.graph.item? j).map f else w.graph.item? j
  /-- Some of these items are added to the list, in their order. -/
  decaying : w'.decaying = w.decaying ++ ids.filter fun j => (w.graph.item? j).any p

variable {f : Item → Item} {p : Item → Bool} {w w' w'' w₀ : World} {id : ItemId} {i : Item}

/-- Nothing is done for no items. -/
theorem TurnsAll.nil (f : Item → Item) (p : Item → Bool) (w : World) : TurnsAll f p w [] w where
  catalog := rfl
  item? _ := by rw [if_neg List.not_mem_nil]
  decaying := (List.append_nil _).symm

/-- Nothing that is done for one item reaches the next ones. -/
theorem Turns.cons {ids : List ItemId} (h : Turns f p w id w') (hOnce : id ∉ ids)
    (hRest : TurnsAll f p w' ids w'') : TurnsAll f p w (id :: ids) w'' where
  catalog := hRest.catalog.trans h.catalog
  item? j := by
    rw [hRest.item?, h.item?]
    by_cases hj : j = id
    · rw [if_neg (hj ▸ hOnce), if_pos hj, if_pos (List.mem_cons.2 (.inl hj))]
    · simp only [hj, List.mem_cons, false_or, if_false]
  decaying := by
    -- Who keeps its place among the others does not depend on this item.
    have hSame : ids.filter (fun j => (w'.graph.item? j).any p)
        = ids.filter fun j => (w.graph.item? j).any p := by
      refine List.filter_congr fun j hMem => ?_
      have hj : j ≠ id := fun hj => hOnce (hj ▸ hMem)
      rw [h.item?, if_neg hj]
    rw [hRest.decaying, h.decaying, hSame, List.append_assoc, List.filter_cons]
    split_ifs <;> rfl

/-- Takes some of the time of an item away, and puts the item back on the list. -/
def lower (elapsed : Int) (w : World) (id : ItemId) : World :=
  let w := w.updateItem id fun i => i.increase .duration (-elapsed)
  { w with decaying := w.decaying ++ [id] }

/-- Lets time pass for an item that had so much left in the world `w₀`. -/
def pass (w₀ : World) (elapsed : Int) (w : World) (id : ItemId) : World :=
  if elapsed < w₀.durationOf id then w.lower elapsed id else w.finishDecay id

/-- **What becomes of an item as time passes.** -/
theorem turns_pass (elapsed : Int) (hi : w.graph.item? id = some i)
    (hSame : w₀.graph.item? id = some i) :
    Turns (·.aged w.catalog elapsed) (·.staysListed w.catalog elapsed) w id
      (w₀.pass elapsed w id) := by
  unfold pass
  rw [durationOf_of_item? hSame]
  -- With more time left than passes the item stays, and otherwise it comes to its end.
  by_cases hLeft : elapsed < i.duration
  · rw [if_pos hLeft]
    refine turns_of_some hi rfl ?_ ?_ ?_
    · rw [Item.aged, if_pos hLeft]
      show (w.graph.update id _).item? id = _
      rw [Graph.item?_update, if_pos rfl, hi, Option.map_some]
    · intro j hj
      show (w.graph.update id _).item? j = _
      rw [Graph.item?_update, if_neg hj]
    · rw [Item.staysListed, decide_eq_true hLeft]
      rfl
  · have hFinished := turns_finishDecay w id
    rw [if_neg hLeft]
    refine turns_of_some hi hFinished.catalog ?_ ?_ ?_
    · rw [hFinished.item?, if_pos rfl, hi, Option.map_some, Item.aged, if_neg hLeft]
    · exact fun j hj => by rw [hFinished.item?, if_neg hj]
    · rw [hFinished.decaying, hi, Option.any_some, Item.staysListed, decide_eq_false hLeft]
      rfl

/-- A tick of a running item is its pass, and is counted if its time is over. -/
theorem decayItem_of_running {elapsed : Int} {n : Nat} (hi : w.graph.item? id = some i)
    (hRuns : i.decayState = .running) (hSame : w₀.graph.item? id = some i) :
    decayItem elapsed (w, n) id
      = (w₀.pass elapsed w id, n + if w₀.durationOf id ≤ elapsed then 1 else 0) := by
  unfold decayItem pass
  dsimp only
  rw [hi, durationOf_of_item? hSame]
  dsimp only
  rw [if_neg (not_not.2 hRuns)]
  by_cases hLeft : elapsed < i.duration
  · rw [if_pos hLeft, if_pos hLeft, if_neg (by omega)]
    rfl
  · rw [if_neg hLeft, if_neg hLeft, if_pos (by omega)]

/-- Time passes for some items that are as they were in the world `w₀`, and whose time runs. -/
theorem foldl_decayItem (elapsed : Int) (ids : List ItemId) (n : Nat) (hNodup : ids.Nodup)
    (hItems : ∀ id ∈ ids, w.graph.item? id = w₀.graph.item? id)
    (hRuns : ∀ id ∈ ids, ∃ i, w₀.graph.item? id = some i ∧ i.decayState = .running) :
    ids.foldl (decayItem elapsed) (w, n)
        = (ids.foldl (w₀.pass elapsed) w, n + ids.countP fun id => w₀.durationOf id ≤ elapsed)
      ∧ TurnsAll (·.aged w.catalog elapsed) (·.staysListed w.catalog elapsed) w ids
        (ids.foldl (w₀.pass elapsed) w) := by
  -- Along the list; what is done for its first item leaves the others as they were.
  induction ids generalizing w n with
  | nil => exact ⟨rfl, .nil _ _ w⟩
  | cons id ids ih =>
    obtain ⟨hOnce, hNodup⟩ := List.nodup_cons.1 hNodup
    obtain ⟨i, hSame, hRunning⟩ := hRuns id List.mem_cons_self
    have hi : w.graph.item? id = some i := (hItems id List.mem_cons_self).trans hSame
    have hPass := turns_pass elapsed hi hSame
    have hOthers : ∀ j ∈ ids, (w₀.pass elapsed w id).graph.item? j = w₀.graph.item? j := by
      intro j hMem
      have hj : j ≠ id := fun hj => hOnce (hj ▸ hMem)
      rw [hPass.item?, if_neg hj]
      exact hItems j (List.mem_cons_of_mem _ hMem)
    obtain ⟨hRest, hAll⟩ := ih (n + if w₀.durationOf id ≤ elapsed then 1 else 0) hNodup hOthers
      fun j hMem => hRuns j (List.mem_cons_of_mem _ hMem)
    rw [hPass.catalog] at hAll
    refine ⟨?_, hPass.cons hOnce hAll⟩
    rw [List.foldl_cons, decayItem_of_running hi hRunning hSame, hRest, List.foldl_cons,
      List.countP_cons]
    simp only [decide_eq_true_iff, Nat.add_assoc, Nat.add_comm]

/-- Every item stands on the decay list at most once, and the time of each one that stands there
runs. -/
structure Timed (w : World) : Prop where
  /-- No item stands there twice. -/
  nodup : w.decaying.Nodup
  /-- Their time runs. -/
  runs : ∀ id ∈ w.decaying, ∃ i, w.graph.item? id = some i ∧ i.Runs w.catalog

/-- A tick is one pass for each item of the list: each runs, and each is there once. -/
theorem Timed.foldl_decayItem (h : w.Timed) (elapsed : Int) :
    w.processDecay elapsed
        = (w.decaying.foldl (w.pass elapsed) { w with decaying := [] },
          0 + w.decaying.countP fun id => w.durationOf id ≤ elapsed)
      ∧ TurnsAll (·.aged w.catalog elapsed) (·.staysListed w.catalog elapsed)
        { w with decaying := [] } w.decaying
        (w.decaying.foldl (w.pass elapsed) { w with decaying := [] }) := by
  refine World.foldl_decayItem elapsed w.decaying 0 h.nodup (fun _ _ => rfl) fun id hMem => ?_
  obtain ⟨i, hi, hRuns⟩ := h.runs id hMem
  exact ⟨i, hi, hRuns.running⟩

/-- **One thing is done for every item of the list**: an item that has more time left loses some of
it, and each other one is finished, and counted. -/
theorem Timed.processDecay_eq (h : w.Timed) (elapsed : Int) :
    w.processDecay elapsed
      = (w.decaying.foldl (w.pass elapsed) { w with decaying := [] },
        w.decaying.countP fun id => w.durationOf id ≤ elapsed) := by
  rw [(h.foldl_decayItem elapsed).1, Nat.zero_add]

/-- A tick makes each listed item as old as it says, and keeps those on the list that stay. -/
theorem Timed.turnsAll_processDecay (h : w.Timed) (elapsed : Int) :
    TurnsAll (·.aged w.catalog elapsed) (·.staysListed w.catalog elapsed)
      { w with decaying := [] } w.decaying (w.processDecay elapsed).1 := by
  rw [h.processDecay_eq]
  exact (h.foldl_decayItem elapsed).2

/-- **What becomes of an item as time passes** is read off the item as it was. -/
theorem Timed.item?_processDecay (h : w.Timed) (elapsed : Int) (id : ItemId) :
    (w.processDecay elapsed).1.graph.item? id
      = if id ∈ w.decaying then (w.graph.item? id).map (·.aged w.catalog elapsed)
        else w.graph.item? id :=
  (h.turnsAll_processDecay elapsed).item? id

/-- **The list that time leaves** is the one that was there, without the items that are finished and
do not start again. -/
theorem Timed.decaying_processDecay (h : w.Timed) (elapsed : Int) :
    (w.processDecay elapsed).1.decaying
      = w.decaying.filter fun id => (w.graph.item? id).any (·.staysListed w.catalog elapsed) :=
  (h.turnsAll_processDecay elapsed).decaying

/-! ## §3. The list along a run. -/

/-- No item of the world has more time left than a signed number of 64 bits can say. -/
def InRange (w : World) : Prop :=
  ∀ id i, w.graph.item? id = some i → i.InRange

/-- Numbers stay in range over a list if each item's do. -/
theorem TurnsAll.inRange {ids : List ItemId} (h : TurnsAll f p w ids w') (hw : w.InRange)
    (hf : ∀ i : Item, i.InRange → (f i).InRange) : w'.InRange := by
  intro id i' hi'
  rw [h.item?] at hi'
  split_ifs at hi'
  · obtain ⟨i, hi, rfl⟩ := Option.map_eq_some_iff.1 hi'
    exact hf i (hw id i hi)
  · exact hw id i' hi'

/-- Starting the time of an item leaves a list on which every item stands once, and whose time
runs. -/
theorem Timed.startDecay (h : w.Timed) (id : ItemId) : (w.startDecay id).Timed := by
  have hTurns := turns_startDecay w id
  -- An item that stands on the list already is not started again.
  have hStays : ∀ j ∈ w.decaying, (w.startDecay id).graph.item? j = w.graph.item? j := by
    intro j hMem
    obtain ⟨i, hi, hRuns⟩ := h.runs j hMem
    rw [hTurns.item?]
    split_ifs
    · rw [hi, Option.map_some, (Item.started_of_running hRuns.running).1]
    · rfl
  have hList := hTurns.decaying
  by_cases hAny : (w.graph.item? id).any (·.isEnlisted w.catalog) = true
  · rw [if_pos hAny] at hList
    obtain ⟨i, hi, hEnlisted⟩ := (Option.any_eq_true _ _).1 hAny
    -- What stands on the list runs, and what runs would not have been listed now.
    have hNew : id ∉ w.decaying := by
      intro hMem
      obtain ⟨i', hi', hRuns⟩ := h.runs id hMem
      obtain rfl := Option.some_inj.1 (hi.symm.trans hi')
      rw [(Item.started_of_running hRuns.running).2] at hEnlisted
      cases hEnlisted
    constructor
    · rw [hList]
      exact h.nodup.append (List.nodup_singleton id) (List.disjoint_singleton.2 hNew)
    · intro j hMem
      rw [hList, List.mem_append, List.mem_singleton] at hMem
      rcases hMem with hOld | rfl
      · rw [hStays j hOld, hTurns.catalog]
        exact h.runs j hOld
      · refine ⟨i.started w.catalog, ?_, ?_⟩
        · rw [hTurns.item?, if_pos rfl, hi, Option.map_some]
        · rw [hTurns.catalog]
          exact Item.runs_started hEnlisted
  · -- The item is not listed, so the list is as it was.
    rw [if_neg hAny, List.append_nil] at hList
    refine ⟨hList ▸ h.nodup, fun j hMem => ?_⟩
    rw [hList] at hMem
    rw [hStays j hMem, hTurns.catalog]
    exact h.runs j hMem

/-- Time that passes leaves such a list too, forwards and backwards. -/
theorem Timed.processDecay (h : w.Timed) (elapsed : Int) : (w.processDecay elapsed).1.Timed where
  nodup := by
    rw [h.decaying_processDecay]
    exact h.nodup.filter _
  runs id hMem := by
    rw [h.decaying_processDecay, List.mem_filter] at hMem
    -- Who is on the list afterwards was on it before, and stays.
    obtain ⟨hListed, hStays⟩ := hMem
    obtain ⟨i, hi, hRuns⟩ := h.runs id hListed
    rw [hi, Option.any_some] at hStays
    refine ⟨i.aged w.catalog elapsed, ?_, ?_⟩
    · rw [h.item?_processDecay, if_pos hListed, hi, Option.map_some]
    · rw [(h.turnsAll_processDecay elapsed).catalog]
      exact Item.runs_aged hRuns hStays

/-- The worlds that come from one with an empty decay list by starting the time of items and letting
time pass, in any order.  Whatever else is done in between leaves the list and its items alone. -/
inductive Paced : World → Prop where
  /-- No time runs yet. -/
  | quiet {w : World} (hEmpty : w.decaying = []) (hRange : w.InRange) : Paced w
  /-- The time of an item is started. -/
  | started {w : World} (h : Paced w) (id : ItemId) : Paced (w.startDecay id)
  /-- Time passes. -/
  | aged {w : World} (h : Paced w) (elapsed : Int) : Paced (w.processDecay elapsed).1
  /-- Something else happens. -/
  | apart {w w' : World} (h : Paced w) (hCatalog : w'.catalog = w.catalog)
    (hList : w'.decaying = w.decaying)
    (hItems : ∀ id ∈ w.decaying, w'.graph.item? id = w.graph.item? id) (hRange : w'.InRange) :
    Paced w'

/-- Numbers stay in range when something is done for one item. -/
theorem Turns.inRange (h : Turns f p w id w') (hw : w.InRange)
    (hf : ∀ i : Item, i.InRange → (f i).InRange) : w'.InRange :=
  (h.cons List.not_mem_nil (.nil f p w')).inRange hw hf

/-- A world whose list is paced is timed, with its numbers in range. -/
theorem Paced.timed (h : Paced w) : w.Timed ∧ w.InRange := by
  induction h with
  | quiet hEmpty hRange =>
    refine ⟨⟨hEmpty ▸ List.nodup_nil, fun id hMem => ?_⟩, hRange⟩
    rw [hEmpty] at hMem
    cases hMem
  | started _ id ih =>
    exact ⟨ih.1.startDecay id, (turns_startDecay _ id).inRange ih.2 fun _ => Item.inRange_started⟩
  | aged _ elapsed ih =>
    exact ⟨ih.1.processDecay elapsed, (ih.1.turnsAll_processDecay elapsed).inRange ih.2
      fun _ hi => Item.inRange_aged hi elapsed⟩
  -- What happens apart from the list leaves the items that are on it.
  | apart _ hCatalog hList hItems hRange ih =>
    refine ⟨⟨hList ▸ ih.1.nodup, fun id hMem => ?_⟩, hRange⟩
    rw [hList] at hMem
    rw [hItems id hMem, hCatalog]
    exact ih.1.runs id hMem

/-- What letting time pass does to the items of a world. -/
structure Ages (w : World) (elapsed : Int) (w' : World) (finished : Nat) : Prop where
  /-- Of the items on the list each one that has more time left loses some of it, and each other one
  is finished, one after the other, and nothing else is done. -/
  oneByOne : w' = w.decaying.foldl (w.pass elapsed) { w with decaying := [] }
  /-- Those that are finished are counted. -/
  counted : finished = w.decaying.countP fun id => w.durationOf id ≤ elapsed
  /-- An item that has more time left has just that much less of it, and stays on the list. -/
  left : ∀ id ∈ w.decaying, ∀ i, w.graph.item? id = some i → elapsed < i.duration →
    w'.graph.item? id = some (i.setNumber .duration (i.duration - elapsed)) ∧ id ∈ w'.decaying
  /-- Each other one is what it decays to, and stays on the list only if that starts again. -/
  spent : ∀ id ∈ w.decaying, ∀ i, w.graph.item? id = some i → i.duration ≤ elapsed →
    w'.graph.item? id = some (i.finished w.catalog)
      ∧ (id ∈ w'.decaying ↔ i.startsAgain w.catalog = true)
  /-- The items that are not on the list are as before, wherever they lie. -/
  unlisted : ∀ id ∉ w.decaying, w'.graph.item? id = w.graph.item? id ∧ id ∉ w'.decaying

/-- **The decay list is what it should be**, whatever the catalog lets items decay to: however their
time has been started and has passed, no item is on the list twice, and each one that is there is
running, has time left and is of a type that decays.  As more time passes, those that have more left
lose exactly that much and stay, each other one is finished once and counted, and the items that are
not on the list stay the same. -/
theorem Paced.keeps_the_list (h : Paced w) :
    w.decaying.Nodup
      ∧ (∀ id ∈ w.decaying, ∃ i t, w.graph.item? id = some i ∧ i.decayState = .running
        ∧ 0 < i.duration ∧ w.catalog.get? i.typeId = some t ∧ t.canDecay = true)
      ∧ ∀ elapsed : Int, 0 ≤ elapsed →
        w.Ages elapsed (w.processDecay elapsed).1 (w.processDecay elapsed).2 := by
  obtain ⟨hTimed, hRange⟩ := h.timed
  refine ⟨hTimed.nodup, fun id hMem => ?_, fun elapsed hElapsed => ?_⟩
  · obtain ⟨i, hi, hRuns⟩ := hTimed.runs id hMem
    obtain ⟨t, ht, hDecays⟩ := hRuns.decays
    exact ⟨i, t, hi, hRuns.running, hRuns.left, ht, hDecays⟩
  · -- What a tick does to an item of the list, and whether the item stays there.
    have hAged : ∀ id ∈ w.decaying, ∀ i, w.graph.item? id = some i →
        (w.processDecay elapsed).1.graph.item? id = some (i.aged w.catalog elapsed)
          ∧ (id ∈ (w.processDecay elapsed).1.decaying
            ↔ i.staysListed w.catalog elapsed = true) := by
      intro id hMem i hi
      rw [hTimed.item?_processDecay, if_pos hMem, hTimed.decaying_processDecay, List.mem_filter, hi]
      exact ⟨rfl, and_iff_right hMem⟩
    refine ⟨?_, ?_, ?_, ?_, ?_⟩
    · rw [hTimed.processDecay_eq]
    · rw [hTimed.processDecay_eq]
    · intro id hMem i hi hLeft
      obtain ⟨hItem, hList⟩ := hAged id hMem i hi
      rw [hItem, hList, Item.aged, if_pos hLeft, Item.staysListed, decide_eq_true hLeft,
        Item.increase_duration (hRange id i hi) hElapsed hLeft]
      exact ⟨rfl, rfl⟩
    · intro id hMem i hi hOver
      obtain ⟨hItem, hList⟩ := hAged id hMem i hi
      rw [hItem, hList, Item.aged, if_neg (by omega), Item.staysListed,
        decide_eq_false (by omega), Bool.false_or]
      exact ⟨rfl, Iff.rfl⟩
    · intro id hOff
      rw [hTimed.item?_processDecay, if_neg hOff, hTimed.decaying_processDecay, List.mem_filter]
      exact ⟨rfl, fun hBoth => hOff hBoth.1⟩

end World

/-! ## §4. A torch and an ember. -/

/-- A torch, which becomes an ember. -/
def torch : ItemType where
  id := 1
  decaySeconds := 2
  decayTo := some 2

/-- An ember, which becomes a torch again. -/
def ember : ItemType where
  id := 2
  decaySeconds := 5
  decayTo := some 1

/-- A catalog with the two. -/
def torchCatalog : Catalog where
  types := (Catalog.empty.types.insert 1 torch).insert 2 ember
  keyed := Catalog.keyed_insert
    { types := Catalog.empty.types.insert 1 torch
      keyed := Catalog.empty.keyed_insert torch } ember

namespace World

/-- A torch that does not burn. -/
def torchWorld : World where
  catalog := torchCatalog
  graph := { nodes := Graph.empty.nodes.insert 0 { item := Item.ofType torch 0 }, next := 1 }

/-- The torch once it is lit. -/
def torchLit : World :=
  torchWorld.startDecay 0

/-- The numbers of the world with a torch are in range. -/
theorem inRange_torchWorld : torchWorld.InRange := by
  intro id i hi
  -- The world has a single item, under the first number.
  have hItem : torchWorld.graph.item? id
      = if compare 0 id = .eq then some (Item.ofType torch 0) else none := by
    show (((∅ : Std.TreeMap ItemId Node).insert 0 _)[id]?).map _ = _
    rw [Std.TreeMap.getElem?_insert, Std.TreeMap.getElem?_emptyc, apply_ite (Option.map _),
      Option.map_some, Option.map_none]
  rw [hItem] at hi
  split_ifs at hi
  obtain rfl := Option.some_inj.1 hi
  unfold Item.InRange
  decide +kernel

/-- The world with a burning torch is reached. -/
theorem paced_torchLit : Paced torchLit :=
  .started (.quiet rfl inRange_torchWorld) 0

/-- After two seconds the torch has become an ember, which is on the list in its place. -/
theorem keeps_the_list_torch :
    Paced torchLit ∧ 0 ∈ torchLit.decaying
      ∧ torchLit.Ages 2000 (torchLit.processDecay 2000).1 (torchLit.processDecay 2000).2
      ∧ (torchLit.processDecay 2000).2 = 1 ∧ (torchLit.processDecay 2000).1.decaying = [0]
      ∧ ((torchLit.processDecay 2000).1.graph.item? 0).map (·.typeId) = some 2 :=
  ⟨paced_torchLit, by decide +kernel, paced_torchLit.keeps_the_list.2.2 2000 (by decide),
    by decide +kernel, by decide +kernel, by decide +kernel⟩

end World

end Homestead
