/-
  Homestead.Proofs.Item.Decay
  ───────────────────────────
  **WHAT TIME MAKES OF AN ITEM.**

  The time of an item may start if its type decays and the time does not
  run yet.  An item that is finished becomes what its type decays to; if
  that decays too and has time left, it starts again.  It never becomes
  more than one other item at once, even where types decay in a circle.

  An item that has been put on the decay list runs, whichever way it got
  there: its time runs, some of it is left, and its type decays.

  Main results:
    * `started`, `finished`, `aged` — what becomes of an item;
    * `runs_started`, `runs_aged` — what is put on the decay list runs;
    * `running_of_started`, `Runs.leaves_running_iff` — what runs is put on
      the list when it is started, and when it may leave it.
-/
import Homestead.Proofs.Item.Values

namespace Homestead

namespace Item

variable (c : Catalog) (i : Item)

/-! ## §1. Starting, ageing, finishing. -/

/-- Whether the time of an item may start: its type decays, and the time does not run yet. -/
def mayStart : Bool :=
  ((c.get? i.typeId).map (·.canDecay)).getD false && i.decayState != .running

/-- What an item decays to: the target of its type, if the catalog has it. -/
def decayTarget? : Option TypeId :=
  ((c.get? i.typeId).bind (·.decayTo)).filter fun target => target != 0 && (c.get? target).isSome

/-- Whether an item has time left that may start. -/
def isReady : Bool :=
  decide (0 < i.duration) && i.mayStart c

/-- Whether an item that is finished becomes one that has time left. -/
def startsAgain : Bool :=
  (i.decayTarget? c).any fun target => (i.become c target).isReady c

/-- An item once it is finished: what it decays to, if there is such a type. -/
def finished : Item :=
  match i.decayTarget? c with
  | none => i
  | some target =>
    if (i.become c target).isReady c then (i.become c target).setDecayState .running
    else i.become c target

/-- An item once its time has been started. -/
def started : Item :=
  if !i.mayStart c then i
  else if i.duration ≤ 0 then i.finished c
  else i.setDecayState .running

/-- Whether an item stands on the decay list because its time has been started. -/
def isEnlisted : Bool :=
  i.mayStart c && (decide (0 < i.duration) || i.startsAgain c)

/-- An item of the decay list once some time has passed: it has less time left, or is finished. -/
def aged (elapsed : Int) : Item :=
  if elapsed < i.duration then i.increase .duration (-elapsed) else i.finished c

/-- Whether an item of the decay list stands on it when some time has passed. -/
def staysListed (elapsed : Int) : Bool :=
  decide (elapsed < i.duration) || i.startsAgain c

/-- The time of an item runs: it has time left, and its type decays. -/
structure Runs : Prop where
  /-- Its time runs. -/
  running : i.decayState = .running
  /-- There is some time left. -/
  left : 0 < i.duration
  /-- Its type decays. -/
  decays : ∃ t, c.get? i.typeId = some t ∧ t.canDecay = true

variable {c i}

/-! ## §2. Items whose time runs. -/

/-- The state that is set is the state. -/
theorem decayState_setDecayState (i : Item) (s : DecayState) :
    (i.setDecayState s).decayState = s := by
  have hNumber : (i.setDecayState s).number .decayState = s.number := by
    rw [setDecayState, number_setNumber, if_pos ⟨rfl, rfl⟩]
  rw [decayState, hNumber]
  cases s <;> rfl

/-- The state of decay is no part of the time left. -/
theorem duration_setDecayState (i : Item) (s : DecayState) :
    (i.setDecayState s).duration = i.duration := by
  rw [duration, setDecayState, number_setNumber, if_neg (by decide), duration]

/-- What runs is not started again. -/
theorem mayStart_of_running (h : i.decayState = .running) : i.mayStart c = false := by
  rw [mayStart, h]
  exact Bool.and_false _

/-- An item whose time runs is not started again. -/
theorem started_of_running (h : i.decayState = .running) :
    i.started c = i ∧ i.isEnlisted c = false := by
  unfold started isEnlisted
  rw [mayStart_of_running h]
  exact ⟨rfl, rfl⟩

/-- Only what can decay may start. -/
theorem canDecay_of_mayStart (h : i.mayStart c = true) :
    ∃ t, c.get? i.typeId = some t ∧ t.canDecay = true := by
  unfold mayStart at h
  rw [Bool.and_eq_true] at h
  cases hType : c.get? i.typeId with
  | none =>
    rw [hType] at h
    cases h.1
  | some t =>
    rw [hType] at h
    exact ⟨t, rfl, h.1⟩

/-- **What an item decays to** is a target of its type that the catalog has. -/
theorem exists_of_decayTarget? {target : TypeId} (h : i.decayTarget? c = some target) :
    ∃ t t', c.get? i.typeId = some t ∧ t.decayTo = some target ∧ target ≠ 0
      ∧ c.get? target = some t' := by
  obtain ⟨hDecays, hKnown⟩ := Option.filter_eq_some_iff.1 h
  obtain ⟨t, ht, hTo⟩ := Option.bind_eq_some_iff.1 hDecays
  rw [Bool.and_eq_true] at hKnown
  obtain ⟨t', ht'⟩ := Option.isSome_iff_exists.1 hKnown.2
  exact ⟨t, t', ht, hTo, bne_iff_ne.1 hKnown.1, ht'⟩

/-- The time of an item that may start runs once its state says so. -/
theorem runs_setDecayState (hMay : i.mayStart c = true) (hLeft : 0 < i.duration) :
    (i.setDecayState .running).Runs c where
  running := decayState_setDecayState i .running
  left := by rwa [duration_setDecayState]
  decays := canDecay_of_mayStart (i := i) hMay

/-- An item is ready if it has time left and may start. -/
theorem isReady_iff : i.isReady c = true ↔ 0 < i.duration ∧ i.mayStart c = true := by
  rw [isReady, Bool.and_eq_true, decide_eq_true_iff]

/-- **An item that starts again** is one whose time runs. -/
theorem runs_finished (h : i.startsAgain c = true) : (i.finished c).Runs c := by
  unfold startsAgain at h
  unfold finished
  cases hTarget : i.decayTarget? c with
  | none =>
    rw [hTarget] at h
    cases h
  | some target =>
    rw [hTarget, Option.any_some] at h
    dsimp only
    -- The item that it turned into is ready, and is started on the spot.
    rw [if_pos h]
    exact runs_setDecayState (isReady_iff.1 h).2 (isReady_iff.1 h).1

/-- **An item whose time has been started** is one whose time runs, if it stands on the list. -/
theorem runs_started (h : i.isEnlisted c = true) : (i.started c).Runs c := by
  rw [isEnlisted, Bool.and_eq_true, Bool.or_eq_true, decide_eq_true_iff] at h
  obtain ⟨hMay, hHow⟩ := h
  unfold started
  rw [if_neg (by rw [hMay]; decide)]
  -- It is on the list as what it is, or as what it was finished to.
  by_cases hOver : i.duration ≤ 0
  · rw [if_pos hOver]
    exact runs_finished (hHow.resolve_left (by omega))
  · rw [if_neg hOver]
    exact runs_setDecayState hMay (by omega)

/-- Time that is added is added with saturation. -/
theorem duration_increase (i : Item) (n : Int) :
    (i.increase .duration n).duration = saturate (i.duration + n) := by
  show (i.setNumber .duration _).number .duration = _
  rw [number_setNumber, if_pos ⟨rfl, rfl⟩]
  rfl

/-- **An item that stays on the list** is one whose time runs. -/
theorem runs_aged {elapsed : Int} (h : i.Runs c) (hStays : i.staysListed c elapsed = true) :
    (i.aged c elapsed).Runs c := by
  rw [staysListed, Bool.or_eq_true, decide_eq_true_iff] at hStays
  unfold aged
  by_cases hLeft : elapsed < i.duration
  · rw [if_pos hLeft]
    refine ⟨(decayState_increase i _).trans h.running, ?_, h.decays⟩
    rw [duration_increase]
    -- However far back the time is set, what is left stays within 64 bits and above zero.
    unfold saturate clamp
    omega
  · rw [if_neg hLeft]
    exact runs_finished (hStays.resolve_left hLeft)

/-! ## §3. Sixty-four bits hold every time. -/

/-- The item has no more time left than a signed number of 64 bits can say. -/
def InRange (i : Item) : Prop :=
  i.duration ≤ 9223372036854775807

/-- An item loses exactly the time that passes, if it has more left. -/
theorem increase_duration (hRange : i.InRange) {elapsed : Int} (hElapsed : 0 ≤ elapsed)
    (hLeft : elapsed < i.duration) :
    i.increase .duration (-elapsed) = i.setNumber .duration (i.duration - elapsed) := by
  have hExact : saturate (i.duration + -elapsed) = i.duration - elapsed := by
    unfold InRange at hRange
    unfold saturate clamp
    omega
  rw [← hExact]
  rfl

/-- The numbers of an item stay in range when it becomes another. -/
theorem inRange_become (h : i.InRange) (c : Catalog) (newType : TypeId) :
    (i.become c newType).InRange := by
  unfold InRange at h ⊢
  cases hType : c.get? newType with
  | none =>
    have hSame : (i.become c newType).duration = i.duration := by
      unfold become
      rw [hType]
      rfl
    rwa [hSame]
  | some t =>
    have hSeconds := t.decaySeconds.toNat_lt
    -- The time left is dropped, set to that of the type, or kept.
    have hEntry := entry_become i hType .duration
    rw [if_neg (by decide), if_neg (by decide)] at hEntry
    by_cases hKnows : t.KnowsDecay
    · rw [if_neg (not_not.2 hKnows)] at hEntry
      by_cases hAnew : i.StartsAnew c t
      · rw [if_pos hAnew] at hEntry
        rw [duration, number_of_entry rfl hEntry]
        show t.duration ≤ _
        unfold ItemType.duration
        omega
      · rw [if_neg hAnew] at hEntry
        rwa [duration, number_eq_of_entry hEntry]
    · rw [if_pos hKnows] at hEntry
      rw [duration, number_of_not_has (has_of_entry hEntry)]
      decide

/-- The numbers of an item stay in range at its end. -/
theorem inRange_finished (h : i.InRange) : (i.finished c).InRange := by
  unfold finished
  split
  next => exact h
  next target _ =>
    split_ifs
    · exact (duration_setDecayState _ _).trans_le (inRange_become h c target)
    · exact inRange_become h c target

/-- The numbers of an item stay in range at its start. -/
theorem inRange_started (h : i.InRange) : (i.started c).InRange := by
  unfold started
  split_ifs
  · exact h
  · exact inRange_finished h
  · exact (duration_setDecayState _ _).trans_le h

/-- The numbers of an item stay in range as it ages. -/
theorem inRange_aged (h : i.InRange) (elapsed : Int) : (i.aged c elapsed).InRange := by
  unfold aged
  split_ifs
  · unfold InRange
    rw [duration_increase]
    unfold saturate clamp
    omega
  · exact inRange_finished h

/-! ## §4. Time that runs, and nobody sees to it. -/

/-- A new item has no state of decay. -/
theorem entry_decayState_ofType (t : ItemType) (n : UInt16) :
    (ofType t n).entry .decayState = (false, none) := by
  -- A sub type is written under its own key, and the state of decay is another.
  have hStart : (({ typeId := t.id, variant := t.variant } : Item).startSubType t n).entry
      .decayState = (false, none) := by
    rw [← entry_plain .decayState t.id t.variant]
    unfold startSubType
    split_ifs <;> first
      | rfl
      | exact (entry_setNumber _ .decayState _ _).trans (if_neg (by decide))
  unfold ofType
  split_ifs
  · rw [setDuration, entry_setNumber, if_neg (by decide), hStart]
  · exact hStart

/-- The time of a new item does not run. -/
theorem decayState_ofType (t : ItemType) (n : UInt16) : (ofType t n).decayState = .idle := by
  rw [decayState, number_of_not_has (has_of_entry (entry_decayState_ofType t n))]
  rfl

/-- Getting another type does not let time run. -/
theorem running_of_become {newType : TypeId} (h : (i.become c newType).decayState = .running) :
    i.decayState = .running := by
  cases hType : c.get? newType with
  | none =>
    have hSame : (i.become c newType).decayState = i.decayState := by
      unfold become
      rw [hType]
      rfl
    rwa [hSame] at h
  | some t =>
    have hEntry := entry_become i hType .decayState
    rw [if_neg (by decide), if_neg (by decide)] at hEntry
    simp only [reduceCtorEq, if_false] at hEntry
    -- Decay is set to idle, or left as it was, or gone.
    split_ifs at hEntry
    · rw [decayState, number_of_entry rfl hEntry] at h
      cases h
    · rwa [← decayState_eq_of_entry hEntry]
    · rw [decayState, number_of_not_has (has_of_entry hEntry)] at h
      cases h

/-- **Time that runs has been started**, or ran before. -/
theorem running_of_started (h : (i.started c).decayState = .running) :
    i.isEnlisted c = true ∨ i.decayState = .running := by
  unfold started at h
  -- An item that may not start stays as it was.
  by_cases hMay : i.mayStart c = true
  · rw [if_neg (by rw [hMay]; decide)] at h
    -- Without time left it is finished on the spot, and may run on as what it has become.
    by_cases hOver : i.duration ≤ 0
    · rw [if_pos hOver] at h
      unfold isEnlisted startsAgain
      unfold finished at h
      rw [hMay, decide_eq_false (by omega)]
      cases hTarget : i.decayTarget? c with
      | none =>
        rw [hTarget] at h
        exact .inr h
      | some target =>
        rw [hTarget] at h
        dsimp only at h
        split_ifs at h with hReady
        · exact .inl hReady
        · exact .inr (running_of_become h)
    · left
      rw [isEnlisted, hMay, decide_eq_true (by omega)]
      rfl
  · rw [if_pos (by rw [Bool.not_eq_true] at hMay; rw [hMay]; rfl)] at h
    exact .inr h

/-- The time of an item on the list runs on when the item gets another type, if it goes on. -/
theorem Runs.running_become_iff (h : i.Runs c) {target : TypeId} {t : ItemType}
    (hType : c.get? target = some t) :
    (i.become c target).decayState = .running ↔ i.GoesOn c t := by
  -- An item on the list has time left, and so it has the attribute.
  have hHas : i.has .duration = true := by
    by_contra hNot
    have hZero := number_of_not_has (Bool.not_eq_true _ ▸ hNot)
    have hLeft := h.left
    rw [duration, hZero] at hLeft
    exact absurd hLeft (by decide)
  have hEntry := entry_become_time i hType hHas (.inr rfl : (Kind.decayState) = .duration ∨ _)
  by_cases hGoes : i.GoesOn c t
  · rw [if_pos hGoes] at hEntry
    rw [decayState_eq_of_entry hEntry]
    exact iff_of_true h.running hGoes
  · rw [if_neg hGoes] at hEntry
    refine iff_of_false (fun hRuns => ?_) hGoes
    simp only [reduceCtorEq, if_false] at hEntry
    split_ifs at hEntry
    · rw [decayState, number_of_entry rfl hEntry] at hRuns
      cases hRuns
    · rw [decayState, number_of_not_has (has_of_entry hEntry)] at hRuns
      cases hRuns

/-- **When an item leaves the list with its time running**: its time is over, and it decays to
nothing, or to a type by which its time goes on, so that it is not started again. -/
theorem Runs.leaves_running_iff (h : i.Runs c) {elapsed : Int} :
    (i.aged c elapsed).decayState = .running ∧ i.staysListed c elapsed = false
      ↔ i.duration ≤ elapsed ∧ ∀ target, i.decayTarget? c = some target →
        ∃ t, c.get? target = some t ∧ i.GoesOn c t := by
  unfold aged staysListed startsAgain
  -- An item with time left stays on the list, so neither side holds of it.
  by_cases hLeft : elapsed < i.duration
  · rw [decide_eq_true hLeft]
    exact iff_of_false (fun hBoth => by cases hBoth.2) fun hBoth => by omega
  · have hOver : i.duration ≤ elapsed := by omega
    rw [if_neg hLeft, decide_eq_false hLeft, Bool.false_or, and_iff_right hOver]
    unfold finished
    cases hTarget : i.decayTarget? c with
    | none => exact iff_of_true ⟨h.running, rfl⟩ fun _ hSome => by cases hSome
    | some target =>
      obtain ⟨_, t, _, _, _, hType⟩ := exists_of_decayTarget? hTarget
      have hIff := h.running_become_iff hType
      -- There is one target, so what is said of every target is said of this one.
      have hOnly : (∀ target', some target = some target' →
          ∃ t, c.get? target' = some t ∧ i.GoesOn c t) ↔ i.GoesOn c t := by
        constructor
        · intro hAll
          obtain ⟨t', hType', hGoes⟩ := hAll target rfl
          rwa [Option.some_inj.1 (hType.symm.trans hType')]
        · intro hGoes target' hSome
          exact ⟨t, Option.some_inj.1 hSome ▸ hType, hGoes⟩
      rw [hOnly, ← hIff, Option.any_some]
      dsimp only
      constructor
      · -- An item that would start anew is started, and stays.
        rintro ⟨hRuns, hNot⟩
        rwa [if_neg (by rw [hNot]; decide)] at hRuns
      · intro hRuns
        have hNot : (i.become c target).isReady c = false := by
          rw [isReady, mayStart_of_running hRuns, Bool.and_false]
        rw [if_neg (by rw [hNot]; decide)]
        exact ⟨hRuns, hNot⟩

end Item

end Homestead
