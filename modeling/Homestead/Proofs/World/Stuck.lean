/-
  Homestead.Proofs.World.Stuck
  ────────────────────────────
  **TIME THAT RUNS OFF THE DECAY LIST.**

  That the time of an item runs is noted twice, in the item and on the
  decay list.  Starting the time of an item writes both.  An item that says
  that its time runs and is not on the list is stuck: time passes it by,
  and it cannot be started, for it says that it is.

  An item is on the list unless one of three things has happened.  It was
  made as a copy of an item whose time ran; a copy says all that the item
  says, and nobody puts it on the list.  Its time was over and there was
  nothing to decay to, which takes it out of the world.  Or its time was
  over and it decayed to a type by which time goes on, for want of a time
  of its own or because time stood still in the former type: such an item
  is to be started again, but says that it is running already.

  Main results:
    * `Lively.happen_cases` — what one moment can do;
    * `Lively.stuck_happen` — when one moment makes an item stuck;
    * `Lively.item?_happen` — what is stuck stays as it is;
    * `stuck_when_lost` — which items of a run are stuck.
-/
import Homestead.Proofs.World.DecayList
import Homestead.Proofs.World.Twins

namespace Homestead

/-! ## §1. What happens to items and to their time. -/

/-- Something that happens. -/
inductive Moment where
  /-- An item is made. -/
  | create (typeId : TypeId) (n : UInt16)
  /-- An item is copied. -/
  | copy (source : ItemId)
  /-- The time of an item is started. -/
  | start (id : ItemId)
  /-- Time passes. -/
  | elapse (elapsed : Int)

/-- Copies are made of items that have been made since, which have numbers from `base` on. -/
def Moment.IsOwn (base : ItemId) (m : Moment) : Prop :=
  ∀ source, m = .copy source → base ≤ source

namespace World

/-- The world after something has happened. -/
def happen (w : World) : Moment → World
  | .create typeId n => { w with graph := w.graph.perform w.catalog (.create typeId n) }
  | .copy source => { w with graph := w.graph.perform w.catalog (.clone source) }
  | .start id => w.startDecay id
  | .elapse elapsed => (w.processDecay elapsed).1

/-- The world after one thing and another has happened. -/
def live (w : World) (ms : List Moment) : World :=
  ms.foldl happen w

/-- The time of an item runs, and the item is not on the decay list. -/
def Stuck (w : World) (id : ItemId) : Prop :=
  (∃ i, w.graph.item? id = some i ∧ i.decayState = .running) ∧ id ∉ w.decaying

instance (w : World) (id : ItemId) : Decidable (w.Stuck id) :=
  decidable_of_iff ((w.graph.item? id).any (·.decayState = .running) ∧ id ∉ w.decaying)
    (and_congr_left' (by simp [Option.any_eq_true]))

/-- What makes an item stuck. -/
inductive Loses (w : World) (id : ItemId) : Moment → Prop where
  /-- It is the copy of an item whose time runs. -/
  | copied {source : ItemId} {i : Item} (hi : w.graph.item? source = some i)
    (hRuns : i.decayState = .running) (hNew : id = w.graph.next) : Loses w id (.copy source)
  /-- Its time is over, and there is nothing that it decays to: it is taken out of the world. -/
  | removed {i : Item} {elapsed : Int} (hListed : id ∈ w.decaying)
    (hi : w.graph.item? id = some i) (hOver : i.duration ≤ elapsed)
    (hNone : i.decayTarget? w.catalog = none) : Loses w id (.elapse elapsed)
  /-- Its time is over, and goes on in what it decays to. -/
  | carried {i : Item} {elapsed : Int} {target : TypeId} {t : ItemType}
    (hListed : id ∈ w.decaying) (hi : w.graph.item? id = some i) (hOver : i.duration ≤ elapsed)
    (hTarget : i.decayTarget? w.catalog = some target) (hType : w.catalog.get? target = some t)
    (hGoes : i.GoesOn w.catalog t) : Loses w id (.elapse elapsed)

variable {w w' : World} {id : ItemId} {i : Item}

/-! ## §2. Time. -/

/-- A tick of one item puts nothing into anything: it ages, goes or becomes another, and
may spill. -/
theorem thinner_decayItem (elapsed : Int) (state : World × Nat) (id : ItemId) :
    Thinner state.1 (decayItem elapsed state id).1 := by
  obtain ⟨w, n⟩ := state
  unfold decayItem
  dsimp only
  split
  next => exact thinner_of_graph rfl
  next i _ =>
    -- It is at rest, has time left, or has come to its end.
    split_ifs
    · exact thinner_of_graph rfl
    · intro inner outer hLies
      have hSame : (w.graph.update id (·.increase .duration (-elapsed))).Lies inner outer := hLies
      rwa [Graph.Lies, Graph.contents_update] at hSame
    · exact thinner_finishDecay w id

/-- A tick puts nothing into anything, by induction over the list. -/
theorem thinner_processDecay (w : World) (elapsed : Int) :
    Thinner w (w.processDecay elapsed).1 := by
  have hFold : ∀ (ids : List ItemId) (state : World × Nat), Thinner w state.1 →
      Thinner w (ids.foldl (decayItem elapsed) state).1 := by
    intro ids
    induction ids with
    | nil => exact fun _ h => h
    | cons id ids ih => exact fun state h => ih _ (h.trans (thinner_decayItem elapsed state id))
  exact hFold _ _ (thinner_of_graph rfl)

/-- Starting the time of items makes none of them stuck. -/
theorem stuck_startDecay (w : World) (j : ItemId) :
    (w.startDecay j).Stuck id ↔ w.Stuck id := by
  have hTurns := turns_startDecay w j
  by_cases hid : id = j
  · subst hid
    cases hi : w.graph.item? id with
    | none =>
      unfold Stuck
      rw [hTurns.item?, if_pos rfl, hi]
      simp
    | some i =>
      have hItem : (w.startDecay id).graph.item? id = some (i.started w.catalog) := by
        rw [hTurns.item?, if_pos rfl, hi, Option.map_some]
      have hList := hTurns.decaying
      rw [hi, Option.any_some] at hList
      unfold Stuck
      rw [hItem, hi, hList]
      simp only [Option.some_inj, exists_eq_left']
      constructor
      · -- It runs after it was started: then it was put on the list, or ran before.
        rintro ⟨hRuns, hOff⟩
        rw [List.mem_append, not_or] at hOff
        rcases Item.running_of_started hRuns with hEnlisted | hBefore
        · rw [if_pos hEnlisted] at hOff
          exact absurd List.mem_cons_self hOff.2
        · exact ⟨hBefore, hOff.1⟩
      · -- It runs already: then it cannot be started, which is all that is wrong with it.
        rintro ⟨hRuns, hOff⟩
        obtain ⟨hSame, hEnlisted⟩ := Item.started_of_running (c := w.catalog) hRuns
        rw [hSame, hEnlisted]
        exact ⟨hRuns, by simpa using hOff⟩
  · have hList : id ∈ (w.startDecay j).decaying ↔ id ∈ w.decaying := by
      rw [hTurns.decaying, List.mem_append]
      split_ifs <;> simp [hid]
    unfold Stuck
    rw [hTurns.item?, if_neg hid, hList]

/-- **Time that passes makes an item stuck** that is finished with its time running. -/
theorem stuck_processDecay (hTimed : w.Timed) (elapsed : Int) :
    (w.processDecay elapsed).1.Stuck id ↔ w.Stuck id ∨ w.Loses id (.elapse elapsed) := by
  unfold Stuck
  rw [hTimed.item?_processDecay, hTimed.decaying_processDecay, List.mem_filter]
  -- Time passes for the items of the list only, and none of those is stuck before.
  by_cases hListed : id ∈ w.decaying
  · obtain ⟨i, hi, hRuns⟩ := hTimed.runs id hListed
    have hLoses : w.Loses id (.elapse elapsed) ↔ i.duration ≤ elapsed
        ∧ ∀ target, i.decayTarget? w.catalog = some target →
          ∃ t, w.catalog.get? target = some t ∧ i.GoesOn w.catalog t := by
      constructor
      · intro h
        cases h with
        | removed _ hi' hOver hNone =>
          obtain rfl := Option.some_inj.1 (hi.symm.trans hi')
          exact ⟨hOver, fun _ hTarget => by rw [hNone] at hTarget; cases hTarget⟩
        | carried _ hi' hOver hTarget hType hGoes =>
          obtain rfl := Option.some_inj.1 (hi.symm.trans hi')
          exact ⟨hOver, fun _ hSome =>
            ⟨_, Option.some_inj.1 (hTarget.symm.trans hSome) ▸ hType, hGoes⟩⟩
      · rintro ⟨hOver, hGoes⟩
        cases hTarget : i.decayTarget? w.catalog with
        | none => exact .removed hListed hi hOver hTarget
        | some target =>
          obtain ⟨t, hType, hOn⟩ := hGoes target hTarget
          exact .carried hListed hi hOver hTarget hType hOn
    rw [hLoses, ← hRuns.leaves_running_iff, if_pos hListed, hi, Option.map_some, Option.any_some]
    simp [hListed]
  · have hNone : ¬ w.Loses id (.elapse elapsed) := by
      intro h
      cases h with
      | removed hOn _ _ _ => exact hListed hOn
      | carried hOn _ _ _ _ _ => exact hListed hOn
    rw [if_neg hListed, or_iff_left hNone]
    simp [hListed]

/-! ## §3. New items. -/

/-- A new item that holds nothing is entered under the next number. -/
theorem node?_create_leaf (g : Graph) (i : Item) (j : ItemId) :
    (g.create (.node i [])).2.node? j = if j = g.next then some { item := i } else g.node? j := by
  rw [Graph.create, Graph.plant, Graph.plantAll]
  exact Graph.node?_withNode g.next j { item := i }

/-- A new item has the next number; the others have their data still. -/
theorem item?_create_leaf (g : Graph) (i : Item) (j : ItemId) :
    (g.create (.node i [])).2.item? j = if j = g.next then some i else g.item? j := by
  rw [Graph.item?, node?_create_leaf]
  split_ifs <;> rfl

/-- A new item is empty; the others hold what they held. -/
theorem contents_create_leaf (g : Graph) (i : Item) (j : ItemId) :
    (g.create (.node i [])).2.contents (.item j)
      = if j = g.next then [] else g.contents (.item j) := by
  rw [Graph.contents, node?_create_leaf]
  split_ifs <;> rfl

/-- The world with one more item, which lies nowhere. -/
def withLeaf (w : World) (i : Item) : World :=
  { w with graph := (w.graph.create (.node i [])).2 }

/-- A new item is stuck if its time runs. -/
theorem stuck_withLeaf (hw : w.graph.Consistent) (hTimed : w.Timed) (i : Item) :
    (w.withLeaf i).Stuck id ↔ w.Stuck id ∨ id = w.graph.next ∧ i.decayState = .running := by
  have hFresh : w.graph.item? w.graph.next = none := by
    rw [Graph.item?, hw.node?_eq_none (Nat.le_refl _), Option.map_none]
  unfold Stuck withLeaf
  dsimp only
  rw [item?_create_leaf]
  by_cases hid : id = w.graph.next
  · -- Its number is new, so the list does not know it.
    have hOff : id ∉ w.decaying := by
      intro hListed
      obtain ⟨i, hi, _⟩ := hTimed.runs id hListed
      rw [hid, hFresh] at hi
      cases hi
    rw [if_pos hid, hid, hFresh]
    simp [← hid, hOff]
  · rw [if_neg hid]
    simp [hid]

/-- A new item is not on the decay list, which is in order still. -/
theorem Timed.withLeaf (hTimed : w.Timed) (hw : w.graph.Consistent) (i : Item) :
    (w.withLeaf i).Timed where
  nodup := hTimed.nodup
  runs id hListed := by
    obtain ⟨i', hi', hRuns⟩ := hTimed.runs id hListed
    obtain ⟨n, hn, _⟩ := Option.map_eq_some_iff.1 hi'
    refine ⟨i', ?_, hRuns⟩
    rw [World.withLeaf, item?_create_leaf, if_neg (Nat.ne_of_lt (hw.numbered id n hn)), hi']

/-! ## §4. One moment. -/

/-- A world of which nothing is known but that the items with a number from `base` on hold
nothing. -/
structure Lively (base : ItemId) (w : World) : Prop where
  /-- The world is sound. -/
  sound : w.Sound
  /-- The items on the decay list run, and are there once. -/
  timed : w.Timed
  /-- These items hold nothing. -/
  bare : ∀ inner outer, base ≤ outer → ¬ w.graph.Lies inner outer

variable {base : ItemId} {m : Moment}

/-- A moment of creation makes a new item of its type, or nothing. -/
theorem happen_create (w : World) (typeId : TypeId) (n : UInt16) :
    w.happen (.create typeId n) = w
      ∨ ∃ t, w.happen (.create typeId n) = w.withLeaf (Item.ofType t n) := by
  cases hType : w.catalog.usable? typeId with
  | none =>
    left
    simp only [happen, Graph.perform, Item.create?, hType, Option.map_none]
  | some t =>
    right
    refine ⟨t, ?_⟩
    simp only [happen, Graph.perform, Item.create?, hType, Option.map_some, World.withLeaf]

/-- A moment of cloning makes a copy of a lone item, or nothing. -/
theorem Lively.happen_copy (h : w.Lively base) {source : ItemId} (hOwn : base ≤ source) :
    w.graph.item? source = none ∧ w.happen (.copy source) = w
      ∨ ∃ i, w.graph.item? source = some i ∧ w.happen (.copy source) = w.withLeaf i.copy := by
  have hPerform : w.happen (.copy source)
      = { w with graph := ((w.graph.clone source).map (·.2)).getD w.graph } := rfl
  rw [hPerform, Graph.clone]
  cases hn : w.graph.node? source with
  | none =>
    refine .inl ⟨by rw [Graph.item?, hn, Option.map_none], ?_⟩
    have hTree : w.graph.tree? source = none := by
      cases hTree : w.graph.tree? source with
      | none => rfl
      | some t =>
        cases t with
        | node item contents =>
          obtain ⟨n, hn', _⟩ := h.sound.consistent.tree?_eq_some_iff.1 hTree
          rw [hn] at hn'
          cases hn'
    rw [hTree]
    rfl
  | some n =>
    -- An item that holds nothing is copied alone.
    have hBare : n.contents = [] := by
      refine List.eq_nil_iff_forall_not_mem.2 fun inner hMem => h.bare inner source hOwn ?_
      show inner ∈ ((w.graph.node? source).map (·.contents)).getD []
      rw [hn]
      exact hMem
    have hTree : w.graph.tree? source = some (.node n.item []) := by
      refine h.sound.consistent.tree?_eq_some_iff.2 ⟨n, hn, rfl, ?_⟩
      rw [hBare]
      trivial
    refine .inr ⟨n.item, by rw [Graph.item?, hn, Option.map_some], ?_⟩
    rw [hTree]
    rfl

/-- One more item that holds nothing leaves the world lively. -/
theorem Lively.withLeaf (h : w.Lively base) {i : Item} (hSound : (w.withLeaf i).Sound) :
    (w.withLeaf i).Lively base where
  sound := hSound
  timed := h.timed.withLeaf h.sound.consistent i
  bare inner outer hOuter hLies := by
    rw [Graph.Lies, World.withLeaf, contents_create_leaf] at hLies
    split_ifs at hLies
    · cases hLies
    · exact h.bare inner outer hOuter hLies

/-- **What one moment can do**: nothing, or one more item is there, which nobody puts on the list,
or the time of an item is started, or time passes. -/
theorem Lively.happen_cases (h : w.Lively base) (hOwn : m.IsOwn base) :
    (w.happen m = w ∧ ∀ id, ¬ w.Loses id m)
      ∨ (∃ i, w.happen m = w.withLeaf i
        ∧ ∀ id, w.Loses id m ↔ id = w.graph.next ∧ i.decayState = .running)
      ∨ (∃ j, m = .start j) ∨ ∃ elapsed, m = .elapse elapsed := by
  cases m with
  | create typeId n =>
    have hNever : ∀ id, ¬ w.Loses id (.create typeId n) := by rintro id ⟨⟩
    rcases happen_create w typeId n with hSame | ⟨t, hLeaf⟩
    · exact .inl ⟨hSame, hNever⟩
    · refine .inr (.inl ⟨_, hLeaf, fun id => iff_of_false (hNever id) ?_⟩)
      rw [Item.decayState_ofType]
      simp
  | copy source =>
    rcases h.happen_copy (hOwn source rfl) with ⟨hNone, hSame⟩ | ⟨i, hi, hLeaf⟩
    · refine .inl ⟨hSame, ?_⟩
      rintro id ⟨hi, _, _⟩
      rw [hNone] at hi
      cases hi
    · -- The copy runs if and only if the item runs.
      refine .inr (.inl ⟨_, hLeaf, fun id => ⟨?_, fun ⟨hNew, hRuns⟩ => .copied hi hRuns hNew⟩⟩)
      rintro ⟨hi', hRuns, hNew⟩
      obtain rfl := Option.some_inj.1 (hi.symm.trans hi')
      exact ⟨hNew, hRuns⟩
  | start j => exact .inr (.inr (.inl ⟨j, rfl⟩))
  | elapse elapsed => exact .inr (.inr (.inr ⟨elapsed, rfl⟩))

/-- A world stays sound whatever happens at a moment. -/
theorem sound_happen (hw : w.Sound) (m : Moment) : (w.happen m).Sound := by
  cases m with
  | create typeId n => exact hw.perform _
  | copy source => exact hw.perform _
  | start id => exact (keeps_startDecay w id).sound hw
  | elapse elapsed => exact (changes_processDecay (A := anyBinding) w elapsed).sound hw

/-- **What happens next** leaves such a world. -/
theorem Lively.happen (h : w.Lively base) (hOwn : m.IsOwn base) : (w.happen m).Lively base := by
  have hSound := sound_happen h.sound m
  obtain ⟨hSame, _⟩ | ⟨i, hLeaf, _⟩ | ⟨j, rfl⟩ | ⟨elapsed, rfl⟩ := h.happen_cases hOwn
  · rwa [hSame]
  · rw [hLeaf] at hSound ⊢
    exact h.withLeaf hSound
  · exact ⟨hSound, h.timed.startDecay j, fun inner outer hOuter hLies =>
      h.bare inner outer hOuter (thinner_startDecay w j inner outer hLies)⟩
  · exact ⟨hSound, h.timed.processDecay elapsed, fun inner outer hOuter hLies =>
      h.bare inner outer hOuter (thinner_processDecay w elapsed inner outer hLies)⟩

/-- **When one moment makes an item stuck.** -/
theorem Lively.stuck_happen (h : w.Lively base) (hOwn : m.IsOwn base) :
    (w.happen m).Stuck id ↔ w.Stuck id ∨ w.Loses id m := by
  obtain ⟨hSame, hNever⟩ | ⟨i, hLeaf, hLoses⟩ | ⟨j, rfl⟩ | ⟨elapsed, rfl⟩ := h.happen_cases hOwn
  · rw [hSame, or_iff_left (hNever id)]
  · rw [hLeaf, stuck_withLeaf h.sound.consistent h.timed, hLoses]
  · have hNever : ¬ w.Loses id (.start j) := by rintro ⟨⟩
    rw [or_iff_left hNever]
    exact stuck_startDecay w j
  · exact stuck_processDecay h.timed elapsed

/-- **What is stuck stays as it is**, whatever happens next. -/
theorem Lively.item?_happen (h : w.Lively base) (hOwn : m.IsOwn base) (hStuck : w.Stuck id) :
    (w.happen m).graph.item? id = w.graph.item? id := by
  obtain ⟨⟨i, hi, hRuns⟩, hOff⟩ := hStuck
  obtain ⟨hSame, _⟩ | ⟨new, hLeaf, _⟩ | ⟨j, rfl⟩ | ⟨elapsed, rfl⟩ := h.happen_cases hOwn
  · rw [hSame]
  · -- The number of a new item is not in use yet.
    obtain ⟨n, hn, _⟩ := Option.map_eq_some_iff.1 hi
    have hOld : id ≠ w.graph.next := Nat.ne_of_lt (h.sound.consistent.numbered id n hn)
    rw [hLeaf, World.withLeaf, item?_create_leaf, if_neg hOld]
  · show (w.startDecay j).graph.item? id = _
    rw [(turns_startDecay w j).item?]
    split_ifs
    · rw [hi, Option.map_some, (Item.started_of_running hRuns).1]
    · rfl
  · show (w.processDecay elapsed).1.graph.item? id = _
    rw [h.timed.item?_processDecay, if_neg hOff]

/-! ## §5. Runs. -/

/-- Moments that follow one another. -/
theorem live_append (w : World) (ms ms' : List Moment) :
    w.live (ms ++ ms') = (w.live ms).live ms' :=
  List.foldl_append

/-- A world stays lively over moments that are about its own items. -/
theorem Lively.live (h : w.Lively base) {ms : List Moment} (hOwn : ∀ m ∈ ms, m.IsOwn base) :
    (w.live ms).Lively base := by
  induction ms generalizing w with
  | nil => exact h
  | cons m ms ih =>
    obtain ⟨hFirst, hRest⟩ := List.forall_mem_cons.1 hOwn
    exact ih (h.happen hFirst) hRest

/-- An item that is stuck stays as it is, whatever happens to others. -/
theorem Lively.item?_live (h : w.Lively base) {ms : List Moment} (hOwn : ∀ m ∈ ms, m.IsOwn base)
    (hStuck : w.Stuck id) : (w.live ms).graph.item? id = w.graph.item? id := by
  induction ms generalizing w with
  | nil => rfl
  | cons m ms ih =>
    obtain ⟨hFirst, hRest⟩ := List.forall_mem_cons.1 hOwn
    have hStill := (h.stuck_happen hFirst).2 (.inl hStuck)
    exact (ih (h.happen hFirst) hRest hStill).trans (h.item?_happen hFirst hStuck)

/-- The moments that make an item stuck, on the way from one world to another. -/
theorem Lively.stuck_live (h : w.Lively base) {ms : List Moment} (hOwn : ∀ m ∈ ms, m.IsOwn base) :
    (w.live ms).Stuck id ↔ w.Stuck id
      ∨ ∃ before m after, ms = before ++ m :: after ∧ (w.live before).Loses id m := by
  -- From the first moment on: it comes before all others.
  induction ms generalizing w with
  | nil =>
    refine (or_iff_left ?_).symm
    rintro ⟨before, m, after, hSplit, _⟩
    exact List.cons_ne_nil _ _ (List.append_eq_nil_iff.1 hSplit.symm).2
  | cons m ms ih =>
    obtain ⟨hFirst, hRest⟩ := List.forall_mem_cons.1 hOwn
    have hLive : w.live (m :: ms) = (w.happen m).live ms := rfl
    rw [hLive, ih (h.happen hFirst) hRest, h.stuck_happen hFirst, or_assoc]
    refine or_congr_right ⟨?_, ?_⟩
    · rintro (hNow | ⟨before, m', after, rfl, hLoses⟩)
      · exact ⟨[], m, ms, rfl, hNow⟩
      · exact ⟨m :: before, m', after, rfl, hLoses⟩
    · rintro ⟨before, m', after, hSplit, hLoses⟩
      cases before with
      | nil =>
        obtain ⟨rfl, rfl⟩ := List.cons.inj hSplit
        exact .inl hLoses
      | cons first before =>
        obtain ⟨rfl, rfl⟩ := List.cons.inj hSplit
        exact .inr ⟨before, m', after, rfl, hLoses⟩

/-- A world with an empty decay list, before anything happens. -/
theorem lively_of_quiet (hw : w.Sound) (hQuiet : w.decaying = []) : w.Lively w.graph.next where
  sound := hw
  timed := ⟨hQuiet ▸ List.nodup_nil, fun id hMem => by rw [hQuiet] at hMem; cases hMem⟩
  bare inner outer hOuter hLies := by
    rw [Graph.Lies, Graph.contents, hw.consistent.node?_eq_none hOuter] at hLies
    cases hLies

/-- **Which items are stuck**: after items have been made and copied, their time has been started
and has passed, from an empty decay list on and with any catalog, the time of an item runs off the
list if and only if it is the copy of an item whose time ran, or was finished without a target, or
by a type that let its time go on.  What is stuck stays as it is for good. -/
theorem stuck_when_lost (hw : w.Sound) (hQuiet : w.decaying = []) {ms : List Moment}
    (hOwn : ∀ m ∈ ms, m.IsOwn w.graph.next) (hNew : w.graph.next ≤ id) :
    ((w.live ms).Stuck id
        ↔ ∃ before m after, ms = before ++ m :: after ∧ (w.live before).Loses id m)
      ∧ ((w.live ms).Stuck id → ∀ later : List Moment, (∀ m ∈ later, m.IsOwn w.graph.next) →
        (w.live (ms ++ later)).graph.item? id = (w.live ms).graph.item? id) := by
  have hLively := lively_of_quiet hw hQuiet
  have hNone : ¬ w.Stuck id := by
    rintro ⟨⟨i, hi, _⟩, _⟩
    rw [Graph.item?, hw.consistent.node?_eq_none hNew] at hi
    cases hi
  refine ⟨?_, fun hStuck later hLater => ?_⟩
  · rw [hLively.stuck_live hOwn, or_iff_right hNone]
  · rw [live_append, (hLively.live hOwn).item?_live hLater hStuck]

end World

/-! ## §6. A torch that is copied, and a lamp. -/

/-- A lamp, whose time stands still, and which becomes an ember. -/
def lamp : ItemType where
  id := 3
  decaySeconds := 1
  decayTo := some 2
  stopTime := true

/-- A catalog of torches, embers and lamps. -/
def lampCatalog : Catalog where
  types := torchCatalog.types.insert 3 lamp
  keyed := torchCatalog.keyed_insert lamp

namespace World

/-- A world without any items. -/
def night : World where
  catalog := lampCatalog

/-- The world with a clone at night is sound. -/
theorem sound_night : night.Sound where
  consistent := Graph.consistent_empty
  typed id n hn := by cases hn

/-- The copy of a torch that burns is stuck, for no other reason than that it is a copy. -/
theorem stuck_when_lost_copy :
    night.Sound ∧ night.decaying = [] ∧ (night.live [.create 1 0, .start 0, .copy 0]).Stuck 1
      ∧ ∃ before m after, [.create 1 0, .start 0, .copy 0] = before ++ m :: after
        ∧ (night.live before).Loses 1 m := by
  have hStuck : (night.live [.create 1 0, .start 0, .copy 0]).Stuck 1 := by
    decide +kernel
  have hOwn : ∀ m ∈ [Moment.create 1 0, .start 0, .copy 0], m.IsOwn night.graph.next :=
    fun _ _ _ _ => Nat.zero_le _
  exact ⟨sound_night, rfl, hStuck, (stuck_when_lost sound_night rfl hOwn (Nat.zero_le 1)).1.1 hStuck⟩

/-- A lamp that has become an ember is stuck too, and so is the copy of a torch, though neither has
been taken out of the world. -/
theorem ember_of_lamp_stuck :
    (night.live [.create 1 0, .start 0, .copy 0]).Stuck 1
      ∧ (night.live [.create 3 0, .start 0, .elapse 1000]).Stuck 0
      ∧ ((night.live [.create 3 0, .start 0, .elapse 1000]).graph.item? 0).map (·.typeId)
        = some 2 := by
  decide +kernel

end World

end Homestead
