/-
  Homestead.Proofs.World.Pace
  ───────────────────────────
  **HOW FAST TIME RUNS.**

  Time passes for an item once for each place that the item has on the
  decay list.  As long as every item has one place at most, an item loses
  just the time that passes.

  An item is kept from a second place by what it says of its time: whoever
  says that the time runs is not started again.  Getting another type may
  take this back while the item keeps its place.  If the item is then
  started before time passes, it has two places, and its time runs twice as
  fast from then on.  Nothing else gives an item a second place.

  Main results:
    * `item?_foldl_decayItem` — what a list with repetitions does to an item;
    * `passesByPlaces` — an item loses the time that passes once for each place;
    * `nodup_startDecay_iff` — when a start gives an item a second place;
    * `passes_once_iff_not_restarted` — the runs in which time passes once.
-/
import Homestead.Proofs.World.DecayList

namespace Homestead

/-! ## §1. An item and its turns. -/

namespace Item

variable {c : Catalog} {i : Item} {elapsed : Int}

/-- An item once its turn on the decay list has come: time passes for it if its time runs. -/
def passed (c : Catalog) (elapsed : Int) (i : Item) : Item :=
  if i.decayState = .running then i.aged c elapsed else i

/-- Whether an item keeps its place when its turn has come. -/
def keepsPlace (c : Catalog) (elapsed : Int) (i : Item) : Bool :=
  decide (i.decayState = .running) && i.staysListed c elapsed

/-- The numbers of an item stay in range when time passes for it. -/
theorem inRange_passed (h : i.InRange) : (i.passed c elapsed).InRange := by
  unfold passed
  split_ifs
  · exact inRange_aged h elapsed
  · exact h

/-- The numbers of an item stay in range however often time passes. -/
theorem inRange_iterate_passed (h : i.InRange) (n : Nat) :
    ((passed c elapsed)^[n] i).InRange := by
  induction n with
  | zero => exact h
  | succ n ih =>
    rw [Function.iterate_succ_apply']
    exact inRange_passed ih

/-- Time does not pass for an item whose time does not run. -/
theorem iterate_passed_of_idle (h : i.decayState ≠ .running) (n : Nat) :
    (passed c elapsed)^[n] i = i :=
  Function.iterate_fixed (by rw [passed, if_neg h]) n

/-- An item that keeps its place runs. -/
theorem running_of_keepsPlace (h : i.keepsPlace c elapsed = true) :
    (i.passed c elapsed).decayState = .running := by
  rw [keepsPlace, Bool.and_eq_true, decide_eq_true_iff, staysListed, Bool.or_eq_true,
    decide_eq_true_iff] at h
  obtain ⟨hRuns, hStays⟩ := h
  rw [passed, if_pos hRuns, aged]
  by_cases hLeft : elapsed < i.duration
  · rw [if_pos hLeft]
    exact (decayState_increase i _).trans hRuns
  · rw [if_neg hLeft]
    exact (runs_finished (hStays.resolve_left hLeft)).running

/-- **An item loses the time that passes once for each turn**, as long as it has more time left. -/
theorem iterate_passed (hRange : i.InRange) (hRuns : i.decayState = .running)
    (hElapsed : 0 ≤ elapsed) {n : Nat} (hLeft : n = 0 ∨ n * elapsed < i.duration) :
    ((passed c elapsed)^[n] i).decayState = .running
      ∧ ((passed c elapsed)^[n] i).duration = i.duration - n * elapsed := by
  induction n with
  | zero => exact ⟨hRuns, by simp⟩
  | succ n ih =>
    have hNext : (n : Int) * elapsed + elapsed < i.duration := by
      have hLess := hLeft.resolve_left (Nat.succ_ne_zero n)
      rwa [Int.natCast_succ, Int.add_mul, Int.one_mul] at hLess
    obtain ⟨hStill, hDuration⟩ := ih (.inr (by omega))
    have hMore : elapsed < ((passed c elapsed)^[n] i).duration := by omega
    -- Each turn before the last one left more time than it took.
    have hPassed : (passed c elapsed)^[n + 1] i
        = ((passed c elapsed)^[n] i).setNumber .duration
          (((passed c elapsed)^[n] i).duration - elapsed) := by
      rw [Function.iterate_succ_apply', passed, if_pos hStill, aged, if_pos hMore,
        increase_duration (inRange_iterate_passed hRange n) hElapsed hMore]
    constructor
    · rw [hPassed]
      refine (decayState_eq_of_entry ?_).trans hStill
      rw [entry_setNumber, if_neg (by decide)]
    · rw [hPassed, duration, number_setNumber, if_pos ⟨rfl, rfl⟩, hDuration, Int.natCast_succ,
        Int.add_mul, Int.one_mul]
      omega

end Item

namespace World

variable {w w' : World} {id : ItemId} {i : Item} {elapsed : Int}

/-! ## §2. A list with repetitions. -/

/-- Only what is done to this one item matters. -/
theorem Turns.congr {f f' : Item → Item} {p p' : Item → Bool} (h : Turns f p w id w')
    (hi : w.graph.item? id = some i) (hf : f i = f' i) (hp : p i = p' i) :
    Turns f' p' w id w' := by
  refine turns_of_some hi h.catalog ?_ (fun j hj => by rw [h.item?, if_neg hj]) ?_
  · rw [h.item?, if_pos rfl, hi, Option.map_some, hf]
  · rw [h.decaying, hi, Option.any_some, hp]

/-- **What becomes of an item whose turn has come.** -/
theorem turns_decayItem (elapsed : Int) (state : World × Nat) (id : ItemId) :
    Turns (Item.passed state.1.catalog elapsed) (Item.keepsPlace state.1.catalog elapsed)
      state.1 id (decayItem elapsed state id).1 := by
  obtain ⟨w, n⟩ := state
  -- Only a running item is passed; another one keeps its data and loses its place.
  cases hi : w.graph.item? id with
  | none =>
    have hSame : decayItem elapsed (w, n) id = (w, n) := by
      unfold decayItem
      dsimp only
      rw [hi]
    rw [hSame]
    exact turns_of_none hi rfl (fun _ => rfl) rfl _ _
  | some i =>
    by_cases hRuns : i.decayState = .running
    · rw [decayItem_of_running hi hRuns hi]
      refine (turns_pass elapsed hi hi).congr hi ?_ ?_
      · exact (if_pos hRuns).symm
      · rw [Item.keepsPlace, decide_eq_true hRuns, Bool.true_and]
    · have hSame : decayItem elapsed (w, n) id = (w, n) := by
        unfold decayItem
        dsimp only
        rw [hi]
        exact if_pos hRuns
      rw [hSame]
      refine turns_of_some hi rfl ?_ (fun _ _ => rfl) ?_
      · rw [hi, Item.passed, if_neg hRuns]
      · rw [Item.keepsPlace, decide_eq_false hRuns, Bool.false_and]
        exact (List.append_nil _).symm

/-- **An item has as many turns as places**, and nothing else on the list reaches it. -/
theorem item?_foldl_decayItem (elapsed : Int) (ids : List ItemId) (state : World × Nat)
    (j : ItemId) :
    (ids.foldl (decayItem elapsed) state).1.graph.item? j
      = (state.1.graph.item? j).map (Item.passed state.1.catalog elapsed)^[ids.count j] := by
  induction ids generalizing state with
  | nil => exact (Option.map_id_apply).symm
  | cons id ids ih =>
    have hTurn := turns_decayItem elapsed state id
    rw [List.foldl_cons, ih, hTurn.item?, hTurn.catalog, List.count_cons]
    by_cases hj : j = id
    · rw [if_pos hj, if_pos (by simp [hj]), Option.map_map]
      rfl
    · rw [if_neg hj, if_neg (by simpa using Ne.symm hj), Nat.add_zero]

/-- Without repetitions every item of the list has one turn, and the list is what is kept. -/
theorem turnsAll_foldl_decayItem (elapsed : Int) {ids : List ItemId} (hNodup : ids.Nodup)
    (state : World × Nat) :
    TurnsAll (Item.passed state.1.catalog elapsed) (Item.keepsPlace state.1.catalog elapsed)
      state.1 ids (ids.foldl (decayItem elapsed) state).1 := by
  induction ids generalizing state with
  | nil => exact .nil _ _ _
  | cons id ids ih =>
    obtain ⟨hOnce, hRest⟩ := List.nodup_cons.1 hNodup
    have hTurn := turns_decayItem elapsed state id
    have hAll := ih hRest (decayItem elapsed state id)
    rw [hTurn.catalog] at hAll
    exact hTurn.cons hOnce hAll

/-! ## §3. How much time an item loses. -/

/-- Time that passes finishes an item: at one of its places on the list, when its turn there has
come, its time runs, and no more is left than passes. -/
def Finishes (w : World) (elapsed : Int) (id : ItemId) : Prop :=
  ∃ before after, w.decaying = before ++ id :: after
    ∧ ∃ i, (before.foldl (decayItem elapsed) ({ w with decaying := [] }, 0)).1.graph.item? id
        = some i
      ∧ i.decayState = .running ∧ i.duration ≤ elapsed

/-- An item loses the time that passes once for each place that it has on the list. -/
structure PassesByPlaces (w : World) (elapsed : Int) (id : ItemId) (i : Item) : Prop where
  /-- It is finished if that is all that it has left. -/
  finishes : w.Finishes elapsed id ↔ i.decayState = .running ∧ id ∈ w.decaying
    ∧ i.duration ≤ w.decaying.count id * elapsed
  /-- Otherwise it has just so much less; an item whose time does not run loses nothing. -/
  left : ¬ w.Finishes elapsed id →
    ∃ i', (w.processDecay elapsed).1.graph.item? id = some i'
      ∧ i'.duration = i.duration
        - if i.decayState = .running then w.decaying.count id * elapsed else 0

/-- A list can be cut before any of the places that an item has in it. -/
theorem exists_split_of_lt_count {ids : List ItemId} {n : Nat} (h : n < ids.count id) :
    ∃ before after, ids = before ++ id :: after ∧ before.count id = n := by
  induction ids generalizing n with
  | nil => cases h
  | cons j ids ih =>
    rw [List.count_cons] at h
    by_cases hj : j = id
    · -- The first place is here, and later ones are found behind it.
      cases n with
      | zero => exact ⟨[], ids, by rw [hj, List.nil_append], List.count_nil⟩
      | succ n =>
        rw [if_pos (by simp [hj])] at h
        obtain ⟨before, after, rfl, hCount⟩ := ih (Nat.lt_of_succ_lt_succ h)
        exact ⟨j :: before, after, rfl, by rw [List.count_cons, if_pos (by simp [hj]), hCount]⟩
    · rw [if_neg (by simpa using hj), Nat.add_zero] at h
      obtain ⟨before, after, rfl, hCount⟩ := ih h
      refine ⟨j :: before, after, rfl, ?_⟩
      rw [List.count_cons, if_neg (by simpa using hj), Nat.add_zero, hCount]

/-- An item is finished at the first of its turns at which no more time is left than passes. -/
theorem finishes_iff_exists_turn (hi : w.graph.item? id = some i) :
    w.Finishes elapsed id ↔ ∃ n < w.decaying.count id,
      ((Item.passed w.catalog elapsed)^[n] i).decayState = .running
        ∧ ((Item.passed w.catalog elapsed)^[n] i).duration ≤ elapsed := by
  -- How often the item has had its turn tells how much time it has lost.
  have hTurn : ∀ before : List ItemId,
      (before.foldl (decayItem elapsed) ({ w with decaying := [] }, 0)).1.graph.item? id
        = some ((Item.passed w.catalog elapsed)^[before.count id] i) := by
    intro before
    rw [item?_foldl_decayItem]
    show (w.graph.item? id).map _ = _
    rw [hi, Option.map_some]
  constructor
  · rintro ⟨before, after, hSplit, i', hi', hRuns, hOver⟩
    obtain rfl := Option.some_inj.1 ((hTurn before).symm.trans hi')
    refine ⟨before.count id, ?_, hRuns, hOver⟩
    rw [hSplit, List.count_append, List.count_cons_self]
    omega
  · rintro ⟨n, hn, hRuns, hOver⟩
    obtain ⟨before, after, hSplit, rfl⟩ := exists_split_of_lt_count hn
    exact ⟨before, after, hSplit, _, hTurn before, hRuns, hOver⟩

/-- Of so many turns that take all that is left, one is the first that takes the rest. -/
theorem exists_last_turn {duration : Int} {places : Nat} (hPlaces : 0 < places)
    (hOver : duration ≤ places * elapsed) :
    ∃ n < places, (n = 0 ∨ n * elapsed < duration) ∧ duration ≤ n * elapsed + elapsed := by
  induction places with
  | zero => cases hPlaces
  | succ places ih =>
    rw [Int.natCast_succ, Int.add_mul, Int.one_mul] at hOver
    by_cases hMore : places = 0 ∨ places * elapsed < duration
    · exact ⟨places, Nat.lt_succ_self places, hMore, hOver⟩
    · rw [not_or, not_lt] at hMore
      obtain ⟨n, hn, hTurn⟩ := ih (Nat.pos_of_ne_zero hMore.1) hMore.2
      exact ⟨n, Nat.lt_succ_of_lt hn, hTurn⟩

/-- An item finishes in a tick exactly if it runs and its time is over after one pass for each of
its places. -/
theorem finishes_iff (hRange : i.InRange) (hi : w.graph.item? id = some i) (hElapsed : 0 ≤ elapsed) :
    w.Finishes elapsed id ↔ i.decayState = .running ∧ id ∈ w.decaying
      ∧ i.duration ≤ w.decaying.count id * elapsed := by
  rw [finishes_iff_exists_turn hi, ← List.count_pos_iff]
  by_cases hRuns : i.decayState = .running
  · rw [and_iff_right hRuns]
    constructor
    · rintro ⟨n, hn, -, hOver⟩
      refine ⟨by omega, ?_⟩
      by_contra hMore
      -- There is more left than all turns take, so more than the first `n` of them and this one.
      have hTurns : ((n + 1 : Nat) : Int) * elapsed ≤ w.decaying.count id * elapsed :=
        Int.mul_le_mul_of_nonneg_right (Int.ofNat_le.2 hn) hElapsed
      rw [Int.natCast_succ, Int.add_mul, Int.one_mul] at hTurns
      have hDuration := (Item.iterate_passed (c := w.catalog) hRange hRuns hElapsed
        (n := n) (.inr (by omega))).2
      omega
    · rintro ⟨hPlaces, hOver⟩
      obtain ⟨n, hn, hInTime, hLate⟩ := exists_last_turn hPlaces hOver
      obtain ⟨hStill, hDuration⟩ :=
        Item.iterate_passed (c := w.catalog) hRange hRuns hElapsed hInTime
      exact ⟨n, hn, hStill, by omega⟩
  · refine iff_of_false ?_ fun h => hRuns h.1
    rintro ⟨n, -, hStill, -⟩
    rw [Item.iterate_passed_of_idle hRuns] at hStill
    exact hRuns hStill

/-- **An item loses the time that passes once for each place.** -/
theorem passesByPlaces (hRange : w.InRange) (hi : w.graph.item? id = some i)
    (hElapsed : 0 ≤ elapsed) : w.PassesByPlaces elapsed id i where
  finishes := finishes_iff (hRange id i hi) hi hElapsed
  left hNot := by
    have hAfter : (w.processDecay elapsed).1.graph.item? id
        = some ((Item.passed w.catalog elapsed)^[w.decaying.count id] i) := by
      rw [processDecay, item?_foldl_decayItem]
      show (w.graph.item? id).map _ = _
      rw [hi, Option.map_some]
    refine ⟨_, hAfter, ?_⟩
    -- An item that does not run loses nothing in any of its turns.
    by_cases hRuns : i.decayState = .running
    · rw [if_pos hRuns]
      rw [finishes_iff (hRange id i hi) hi hElapsed, and_iff_right hRuns, ← List.count_pos_iff,
        not_and, not_le] at hNot
      refine (Item.iterate_passed (hRange id i hi) hRuns hElapsed ?_).2
      exact (Nat.eq_zero_or_pos _).imp_right hNot
    · rw [if_neg hRuns, Item.iterate_passed_of_idle hRuns]
      omega

/-- Time passes once: no item is on the list twice, and each one that is not finished loses no more
than the time that passes. -/
structure PassesOnce (w : World) : Prop where
  /-- No item is on the list twice. -/
  nodup : w.decaying.Nodup
  /-- An item that is not finished loses no more than the time that passes. -/
  slow : ∀ elapsed, 0 ≤ elapsed → ∀ id i, w.graph.item? id = some i → ¬ w.Finishes elapsed id →
    ∃ i', (w.processDecay elapsed).1.graph.item? id = some i' ∧ i.duration - elapsed ≤ i'.duration

/-- Time passes once if every item has one place at most. -/
theorem passesOnce_of_nodup (hRange : w.InRange) (hNodup : w.decaying.Nodup) : w.PassesOnce where
  nodup := hNodup
  slow elapsed hElapsed id i hi hNot := by
    obtain ⟨i', hi', hDuration⟩ := (passesByPlaces hRange hi hElapsed).left hNot
    refine ⟨i', hi', ?_⟩
    have hOnce : (w.decaying.count id : Int) ≤ 1 :=
      Int.ofNat_le.2 (List.nodup_iff_count_le_one.1 hNodup id)
    have hPlaces := Int.mul_le_mul_of_nonneg_right hOnce hElapsed
    rw [hDuration]
    split_ifs <;> omega

/-! ## §4. Steps. -/

/-- Something that is done to the time of items. -/
inductive TimeStep where
  /-- The time of an item is started. -/
  | start (id : ItemId)
  /-- Time passes. -/
  | elapse (elapsed : Int)
  /-- An item is given another type. -/
  | retype (id : ItemId) (newType : TypeId)

/-- The world after one step. -/
def undergo (w : World) : TimeStep → World
  | .start id => w.startDecay id
  | .elapse elapsed => (w.processDecay elapsed).1
  | .retype id newType => w.retype id newType

/-- The world after one step and another. -/
def undergoAll (w : World) (steps : List TimeStep) : World :=
  steps.foldl undergo w

variable {steps before between after : List TimeStep} {newType : TypeId}

/-- Steps that follow one another. -/
theorem undergoAll_append (w : World) (steps steps' : List TimeStep) :
    w.undergoAll (steps ++ steps') = (w.undergoAll steps).undergoAll steps' :=
  List.foldl_append

/-- Steps with one more at the end. -/
theorem undergoAll_concat (w : World) (steps : List TimeStep) (s : TimeStep) :
    w.undergoAll (steps ++ [s]) = (w.undergoAll steps).undergo s :=
  undergoAll_append w steps [s]

/-- A change of type writes one item. -/
theorem item?_retype (w : World) (id j : ItemId) (newType : TypeId) :
    (w.retype id newType).graph.item? j
      = if j = id then (w.graph.item? j).map (·.become w.catalog newType)
        else w.graph.item? j :=
  Graph.item?_retype w.catalog id j newType

/-- The numbers stay in range in every step. -/
theorem inRange_undergo (h : w.InRange) (s : TimeStep) : (w.undergo s).InRange := by
  -- An item is started, passes its turns, or becomes another: each keeps the range.
  cases s with
  | start id => exact (turns_startDecay w id).inRange h fun _ => Item.inRange_started
  | elapse elapsed =>
    intro id i' hi'
    change (w.processDecay elapsed).1.graph.item? id = some i' at hi'
    rw [processDecay, item?_foldl_decayItem] at hi'
    obtain ⟨i, hi, rfl⟩ := Option.map_eq_some_iff.1 hi'
    exact Item.inRange_iterate_passed (h id i hi) _
  | retype j newType =>
    intro id i' hi'
    change (w.retype j newType).graph.item? id = some i' at hi'
    rw [item?_retype] at hi'
    split_ifs at hi'
    · obtain ⟨i, hi, rfl⟩ := Option.map_eq_some_iff.1 hi'
      exact Item.inRange_become (h id i hi) w.catalog newType
    · exact h id i' hi'

/-- The numbers stay in range in every run. -/
theorem inRange_undergoAll (h : w.InRange) (steps : List TimeStep) :
    (w.undergoAll steps).InRange := by
  induction steps generalizing w with
  | nil => exact h
  | cons s steps ih => exact ih (inRange_undergo h s)

/-- The time of an item would be started, and it would be put on the list. -/
def WouldEnlist (w : World) (id : ItemId) : Prop :=
  ∃ i, w.graph.item? id = some i ∧ i.isEnlisted w.catalog = true

/-- **When a start gives an item a second place.** -/
theorem nodup_startDecay_iff :
    (w.startDecay id).decaying.Nodup ↔ w.decaying.Nodup ∧ ¬ (id ∈ w.decaying ∧ w.WouldEnlist id) := by
  have hEnlists : (w.graph.item? id).any (·.isEnlisted w.catalog) = true ↔ w.WouldEnlist id :=
    Option.any_eq_true _ _
  rw [(turns_startDecay w id).decaying]
  by_cases hAny : w.WouldEnlist id
  · rw [if_pos (hEnlists.2 hAny), List.nodup_append_comm, List.singleton_append, List.nodup_cons,
      and_iff_left hAny, and_comm]
  · rw [if_neg (mt hEnlists.1 hAny), List.append_nil, and_iff_left fun h => hAny h.2]

/-! ## §5. Where second places come from. -/

/-- An item of the list is given another type and started again before time passes, and that puts it
on the list. -/
structure RestartsAt (w : World) (before : List TimeStep) (id : ItemId) (newType : TypeId)
    (between : List TimeStep) : Prop where
  /-- The item has a place on the list when it is given another type. -/
  listed : id ∈ (w.undergoAll before).decaying
  /-- No time passes until it is started. -/
  timeless : ∀ elapsed, .elapse elapsed ∉ between
  /-- Then it is put on the list. -/
  enlists : (w.undergoAll (before ++ .retype id newType :: between)).WouldEnlist id

/-- In a run of steps an item of the list is given another type and started again before time
passes. -/
def Restarts (w : World) (steps : List TimeStep) : Prop :=
  ∃ before id newType between after,
    steps = before ++ .retype id newType :: (between ++ .start id :: after)
      ∧ w.RestartsAt before id newType between

/-- An item has been given another type while it had a place on the list, and no time has passed
since. -/
def RetypedSince (w : World) (steps : List TimeStep) (id : ItemId) : Prop :=
  ∃ before newType between, steps = before ++ .retype id newType :: between
    ∧ id ∈ (w.undergoAll before).decaying ∧ ∀ elapsed, .elapse elapsed ∉ between

/-- An item that has been started again has been so in every longer run. -/
theorem Restarts.append (h : w.Restarts steps) (steps' : List TimeStep) :
    w.Restarts (steps ++ steps') := by
  obtain ⟨before, id, newType, between, after, rfl, hAt⟩ := h
  exact ⟨before, id, newType, between, after ++ steps', by simp, hAt⟩

/-- An item has been given another type since time last passed until time passes again. -/
theorem RetypedSince.concat (h : w.RetypedSince steps id) {s : TimeStep}
    (hs : ∀ elapsed, s ≠ .elapse elapsed) : w.RetypedSince (steps ++ [s]) id := by
  obtain ⟨before, newType, between, rfl, hListed, hTimeless⟩ := h
  refine ⟨before, newType, between ++ [s], by simp, hListed, fun elapsed hMem => ?_⟩
  rcases List.mem_append.1 hMem with hOld | hNew
  · exact hTimeless elapsed hOld
  · exact hs elapsed (List.mem_singleton.1 hNew).symm

/-- An item that is started keeps the place that it has. -/
theorem mem_decaying_undergo (h : id ∈ w.decaying) {s : TimeStep}
    (hs : ∀ elapsed, s ≠ .elapse elapsed) : id ∈ (w.undergo s).decaying := by
  cases s with
  | start j =>
    show id ∈ (w.startDecay j).decaying
    rw [(turns_startDecay w j).decaying]
    exact List.mem_append_left _ h
  | elapse elapsed => exact absurd rfl (hs elapsed)
  | retype j newType => exact h

/-- Without time that passes no place is lost. -/
theorem mem_decaying_undergoAll (h : id ∈ w.decaying) (hs : ∀ elapsed, .elapse elapsed ∉ steps) :
    id ∈ (w.undergoAll steps).decaying := by
  induction steps generalizing w with
  | nil => exact h
  | cons s steps ih =>
    refine ih (mem_decaying_undergo h fun elapsed hEq => ?_) fun elapsed hMem => ?_
    · exact hs elapsed (hEq ▸ List.mem_cons_self)
    · exact hs elapsed (List.mem_cons_of_mem s hMem)

/-- An item that is started again has two places then. -/
theorem RestartsAt.not_nodup (h : w.RestartsAt before id newType between) :
    ¬ (w.undergoAll (before ++ .retype id newType :: (between ++ [.start id]))).decaying.Nodup := by
  have hStart : w.undergoAll (before ++ .retype id newType :: (between ++ [.start id]))
      = (w.undergoAll (before ++ .retype id newType :: between)).startDecay id := by
    rw [← List.cons_append, ← List.append_assoc, undergoAll_concat]
    rfl
  have hStill : id ∈ (w.undergoAll (before ++ .retype id newType :: between)).decaying := by
    rw [undergoAll_append]
    exact mem_decaying_undergoAll (w := (w.undergoAll before).retype id newType) h.listed h.timeless
  rw [hStart, nodup_startDecay_iff]
  exact fun hBoth => hBoth.2 ⟨hStill, h.enlists⟩

/-- What holds of the list while no item is started again: every item has one place at most, and an
item whose time does not run has been given another type since time last passed. -/
structure Single (w : World) (steps : List TimeStep) : Prop where
  /-- No item is on the list twice. -/
  nodup : (w.undergoAll steps).decaying.Nodup
  /-- An item on the list runs, or has been given another type. -/
  known : ∀ id ∈ (w.undergoAll steps).decaying, ∀ i, (w.undergoAll steps).graph.item? id = some i →
    i.decayState = .running ∨ w.RetypedSince steps id

/-- An item that is started has one place then, if it had none or its time ran. -/
theorem Single.start (h : w.Single steps) {j : ItemId}
    (hNot : ¬ w.Restarts (steps ++ [.start j])) : w.Single (steps ++ [.start j]) := by
  have hKeeps : ∀ elapsed, TimeStep.start j ≠ .elapse elapsed := fun _ h => by cases h
  have hStep : w.undergoAll (steps ++ [.start j]) = (w.undergoAll steps).startDecay j :=
    undergoAll_concat w steps (.start j)
  have hTurns := turns_startDecay (w.undergoAll steps) j
  constructor
  · rw [hStep, nodup_startDecay_iff]
    refine ⟨h.nodup, fun ⟨hListed, hEnlists⟩ => hNot ?_⟩
    -- It has a place, so it would not be started again if it had kept its type.
    obtain ⟨i, hi, hEnlisted⟩ := hEnlists
    obtain hRuns | ⟨before, newType, between, rfl, hThen, hTimeless⟩ := h.known j hListed i hi
    · rw [(Item.started_of_running hRuns).2] at hEnlisted
      cases hEnlisted
    · exact ⟨before, j, newType, between, [], by simp, hThen, hTimeless, i, hi, hEnlisted⟩
  · intro id hMem i' hi'
    rw [hStep] at hMem hi'
    rw [hTurns.decaying, List.mem_append] at hMem
    rw [hTurns.item?] at hi'
    by_cases hOld : id ∈ (w.undergoAll steps).decaying
    · split_ifs at hi' with hj
      · obtain ⟨i, hi, rfl⟩ := Option.map_eq_some_iff.1 hi'
        refine (h.known id hOld i hi).imp (fun hRuns => ?_) (·.concat hKeeps)
        rwa [(Item.started_of_running hRuns).1]
      · exact (h.known id hOld i' hi').imp_right (·.concat hKeeps)
    · -- It is new on the list, so it has just been started.
      have hNew := hMem.resolve_left hOld
      split_ifs at hNew with hAny
      · obtain rfl := List.mem_singleton.1 hNew
        rw [if_pos rfl] at hi'
        obtain ⟨i, hi, rfl⟩ := Option.map_eq_some_iff.1 hi'
        rw [hi, Option.any_some] at hAny
        exact .inl (Item.runs_started hAny).running
      · cases hNew

/-- Time that passes leaves those items on the list whose time still runs. -/
theorem Single.elapse (h : w.Single steps) (elapsed : Int) :
    w.Single (steps ++ [.elapse elapsed]) := by
  have hStep : w.undergoAll (steps ++ [.elapse elapsed])
      = ((w.undergoAll steps).processDecay elapsed).1 := undergoAll_concat w steps (.elapse elapsed)
  -- All items of the list have their turn, each of them once.
  have hAll := turnsAll_foldl_decayItem elapsed h.nodup
    ({ w.undergoAll steps with decaying := [] }, 0)
  have hList : (w.undergoAll (steps ++ [.elapse elapsed])).decaying
      = (w.undergoAll steps).decaying.filter fun id => ((w.undergoAll steps).graph.item? id).any
        (Item.keepsPlace (w.undergoAll steps).catalog elapsed) := by
    rw [hStep]
    exact hAll.decaying
  constructor
  · rw [hList]
    exact h.nodup.filter _
  · intro id hMem i' hi'
    rw [hList, List.mem_filter] at hMem
    obtain ⟨hListed, hKept⟩ := hMem
    obtain ⟨i, hi, hKeeps⟩ := (Option.any_eq_true _ _).1 hKept
    have hItem : (w.undergoAll (steps ++ [.elapse elapsed])).graph.item? id
        = some (i.passed (w.undergoAll steps).catalog elapsed) := by
      rw [hStep]
      refine (hAll.item? id).trans ?_
      rw [if_pos hListed]
      exact (congrArg (Option.map _) hi).trans rfl
    obtain rfl := Option.some_inj.1 (hItem.symm.trans hi')
    -- Whoever keeps its place runs.
    exact .inl (Item.running_of_keepsPlace hKeeps)

/-- An item that is given another type keeps its place. -/
theorem Single.retype (h : w.Single steps) (j : ItemId) (newType : TypeId) :
    w.Single (steps ++ [.retype j newType]) := by
  have hKeeps : ∀ elapsed, TimeStep.retype j newType ≠ .elapse elapsed := fun _ h => by cases h
  have hStep : w.undergoAll (steps ++ [.retype j newType])
      = (w.undergoAll steps).retype j newType := undergoAll_concat w steps (.retype j newType)
  have hList : (w.undergoAll (steps ++ [.retype j newType])).decaying
      = (w.undergoAll steps).decaying := by
    rw [hStep]
    rfl
  constructor
  · rw [hList]
    exact h.nodup
  · intro id hMem i' hi'
    rw [hList] at hMem
    rw [hStep, item?_retype] at hi'
    -- The item itself is excused from running until time passes.
    split_ifs at hi' with hj
    · exact .inr ⟨steps, newType, [], hj ▸ rfl, hMem, fun _ => List.not_mem_nil⟩
    · exact (h.known id hMem i' hi').imp_right (·.concat hKeeps)

/-- **One step leaves every item its one place**, unless it starts an item again. -/
theorem Single.concat (h : w.Single steps) {s : TimeStep} (hNot : ¬ w.Restarts (steps ++ [s])) :
    w.Single (steps ++ [s]) := by
  cases s with
  | start j => exact h.start hNot
  | elapse elapsed => exact h.elapse elapsed
  | retype j newType => exact h.retype j newType

/-- While no item is started again, none has a second place on the list, by induction over the
steps. -/
theorem single_of_not_restarts (hQuiet : w.decaying = []) (hNot : ¬ w.Restarts steps) :
    w.Single steps := by
  induction steps using List.reverseRecOn with
  | nil =>
    refine ⟨hQuiet ▸ List.nodup_nil, fun id hMem => ?_⟩
    change id ∈ w.decaying at hMem
    rw [hQuiet] at hMem
    cases hMem
  | append_singleton steps s ih =>
    exact (ih fun hRestarts => hNot (hRestarts.append [s])).concat hNot

/-- **Time passes once** all along a run of starts, of time and of other types, from an empty decay
list on and with any catalog, if and only if no item of the list is given another type and started
again before time passes.  In every run an item that is not finished loses the time that passes once
for each place that it has on the list. -/
theorem passes_once_iff_not_restarted (hQuiet : w.decaying = []) (hRange : w.InRange)
    (steps : List TimeStep) :
    ((∀ before after, steps = before ++ after → (w.undergoAll before).PassesOnce)
        ↔ ¬ w.Restarts steps)
      ∧ ∀ elapsed, 0 ≤ elapsed → ∀ id i, (w.undergoAll steps).graph.item? id = some i →
        (w.undergoAll steps).PassesByPlaces elapsed id i := by
  refine ⟨⟨?_, fun hNot before after hSplit => ?_⟩, fun elapsed hElapsed id i hi => ?_⟩
  · rintro hOnce ⟨before, id, newType, between, after, rfl, hAt⟩
    refine hAt.not_nodup (hOnce _ after ?_).nodup
    simp
  · subst hSplit
    have hSingle := single_of_not_restarts hQuiet fun hRestarts => hNot (hRestarts.append after)
    exact passesOnce_of_nodup (inRange_undergoAll hRange before) hSingle.nodup
  · exact passesByPlaces (inRange_undergoAll hRange steps) hi hElapsed

/-- A torch that is made an ember and lit again has two places, and a second takes two from it. -/
theorem passes_once_iff_not_restarted_torch :
    torchWorld.decaying = [] ∧ torchWorld.InRange
      ∧ torchWorld.Restarts [.start 0, .retype 0 2, .start 0]
      ∧ ¬ ∀ before after, [TimeStep.start 0, .retype 0 2, .start 0] = before ++ after →
        (torchWorld.undergoAll before).PassesOnce := by
  have hRestarts : torchWorld.Restarts [.start 0, .retype 0 2, .start 0] := by
    refine ⟨[.start 0], 0, 2, [], [], rfl, ?_, fun _ => List.not_mem_nil, ?_⟩
    · decide +kernel
    · exact (Option.any_eq_true _ _).1 (by decide +kernel)
  exact ⟨rfl, inRange_torchWorld, hRestarts, fun hOnce =>
    (passes_once_iff_not_restarted rfl inRange_torchWorld _).1.1 hOnce hRestarts⟩

/-- The torch that has been made an ember and lit again. -/
def emberRelit : World :=
  torchWorld.undergoAll [.start 0, .retype 0 2, .start 0]

/-- The ember is on the list twice; of its five seconds it has three after one second, by which it
is not finished. -/
theorem ember_burns_twice_as_fast :
    torchWorld.decaying = [] ∧ emberRelit.decaying = [0, 0]
      ∧ emberRelit.durationOf 0 = 5000 ∧ ¬ emberRelit.Finishes 1000 0
      ∧ (emberRelit.processDecay 1000).1.durationOf 0 = 3000 := by
  have hRange : emberRelit.InRange := inRange_undergoAll inRange_torchWorld _
  refine ⟨rfl, by decide +kernel, by decide +kernel, fun hFinishes => ?_, by decide +kernel⟩
  cases hi : emberRelit.graph.item? 0 with
  | none =>
    have hThere : (emberRelit.graph.item? 0).isSome = true := by decide +kernel
    rw [hi] at hThere
    cases hThere
  | some i =>
    have hOver := ((finishes_iff (hRange 0 i hi) hi (by decide)).1 hFinishes).2.2
    have hLeft : i.duration = 5000 := by
      rw [← durationOf_of_item? hi]
      decide +kernel
    -- Two places on the list, so that it ages twice in one pass.
    have hPlaces : emberRelit.decaying.count 0 = 2 := by decide +kernel
    rw [hLeft, hPlaces] at hOver
    omega

end World

end Homestead
