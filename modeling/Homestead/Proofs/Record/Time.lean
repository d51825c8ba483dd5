/-
  Homestead.Proofs.Record.Time
  ────────────────────────────
  **ITEMS WITH TIME LEFT.**

  An item that decays is finished on the spot when it is loaded without
  time left.  A new item has time left if its type decays; so has an item
  that was saved with time left, whether it is built anew or its fields are
  made to an item of the map.  Such an item only starts its time.

  Main results:
    * `ticking_ofType` — new items;
    * `lasting_of_restored` — items built from fields;
    * `lasting_applyAll`, `lasting_become` — items of the map that fields are
      made to.
-/
import Homestead.Proofs.Record.RoundTrip

namespace Homestead

open Record

namespace Item

variable {c : Catalog} {t : ItemType} {i : Item}

/-! ## §1. Time that is left. -/

/-- The item has time left if its type decays. -/
def Lasting (c : Catalog) (i : Item) : Prop :=
  ∀ t, c.get? i.typeId = some t → t.canDecay = true → 0 < i.duration

/-- The item has time left, or no time at all, if its type decays. -/
def Unspent (c : Catalog) (i : Item) : Prop :=
  ∀ t, c.get? i.typeId = some t → t.canDecay = true → i.has .duration = true → 0 < i.duration

instance (c : Catalog) (i : Item) : Decidable (i.Unspent c) :=
  decidable_of_iff ((c.get? i.typeId).all fun t =>
      !t.canDecay || !i.has .duration || decide (0 < i.duration)) (by
    unfold Unspent
    cases c.get? i.typeId with
    | none => simp
    | some t =>
      cases hDecays : t.canDecay <;> cases i.has .duration <;> simp [hDecays])

/-- The item has time left if its type decays, and whenever it has a time. -/
structure Ticking (c : Catalog) (i : Item) : Prop where
  /-- Its type decays. -/
  lasting : i.Lasting c
  /-- It has a time. -/
  positive : i.has .duration = true → 0 < i.duration

/-- Whether an item has time left is told by its type and its time. -/
theorem Lasting.of_time {i' : Item} (h : i.Lasting c) (hType : i'.typeId = i.typeId)
    (hTime : i'.entry .duration = i.entry .duration) : i'.Lasting c := by
  intro t ht hDecays
  rw [hType] at ht
  have hNumber : i'.duration = i.duration := number_eq_of_entry hTime
  rw [hNumber]
  exact h t ht hDecays

/-- Whether an item ticks is told by its type and its time. -/
theorem Ticking.of_time {i' : Item} (h : i.Ticking c) (hType : i'.typeId = i.typeId)
    (hTime : i'.entry .duration = i.entry .duration) : i'.Ticking c := by
  refine ⟨h.lasting.of_time hType hTime, ?_⟩
  intro hHas
  have hNumber : i'.duration = i.duration := number_eq_of_entry hTime
  rw [hNumber]
  rw [has_eq_of_entry hTime] at hHas
  exact h.positive hHas

/-! ## §2. New items. -/

/-- A type that can decay lasts for some time. -/
theorem duration_pos_of_canDecay (h : t.canDecay = true) : 0 < t.duration := by
  unfold ItemType.canDecay at h
  rw [Bool.and_eq_true, bne_iff_ne] at h
  have hSeconds : t.decaySeconds.toNat ≠ 0 := by
    intro hZero
    exact h.1 (UInt32.toNat_inj.1 hZero)
  unfold ItemType.duration
  omega

/-- The attributes that are about time: how much is left, and whether it runs. -/
def AboutTime (k : Kind) : Prop :=
  k = .duration ∨ k = .decayState

/-- The first sub type has nothing to do with time. -/
theorem entry_startSubType {k : Kind} (hk : AboutTime k) (n : UInt16) :
    (i.startSubType t n).entry k = i.entry k := by
  -- The sub type is written into count, fluid or charges, of which none is about time.
  have hNumber : ∀ (k' : Kind) (m : Int), ¬ AboutTime k' →
      (i.setNumber k' m).entry k = i.entry k := by
    intro k' m hk'
    rw [entry_setNumber, if_neg]
    exact fun h => hk' (h.1 ▸ hk)
  unfold startSubType
  split_ifs
  all_goals
    first
    | rfl
    | exact hNumber _ _ (by unfold AboutTime; decide)

/-- A new item has the time of its type, if that is not 0. -/
theorem entry_ofType_duration (n : UInt16) :
    (ofType t n).entry .duration
      = if t.duration ≠ 0 then (true, some (.number t.duration)) else (false, none) := by
  unfold ofType
  dsimp only
  split_ifs with hDuration
  · rw [setDuration, entry_setNumber, if_pos ⟨rfl, rfl⟩, max_eq_left (duration_nonneg t)]
  · rw [entry_startSubType (.inl rfl), entry_plain]

/-- The time of a new item does not run. -/
theorem entry_ofType_decayState (n : UInt16) :
    (ofType t n).entry .decayState = (false, none) := by
  have hStart : (({ typeId := t.id, variant := t.variant } : Item).startSubType t n).entry .decayState
      = (false, none) := by
    rw [entry_startSubType (.inr rfl), entry_plain]
  unfold ofType
  dsimp only
  split_ifs
  · rw [setDuration, entry_setNumber, if_neg (by decide), hStart]
  · exact hStart

/-- **A new item has time left if its type decays.** -/
theorem ticking_ofType (hType : c.get? t.id = some t) (n : UInt16) : (ofType t n).Ticking c := by
  have hEntry := entry_ofType_duration (t := t) n
  constructor
  · intro t' ht' hDecays
    rw [typeId_ofType, hType] at ht'
    obtain rfl := Option.some_inj.1 ht'
    have hPos := duration_pos_of_canDecay hDecays
    rw [if_pos (by omega)] at hEntry
    rw [duration, number_of_entry rfl hEntry]
    exact hPos
  · intro hHas
    -- A type without a duration gives its items no time at all.
    by_cases hDuration : t.duration = 0
    · rw [if_neg (by simpa using hDuration)] at hEntry
      rw [has_of_entry hEntry] at hHas
      cases hHas
    · rw [if_pos hDuration] at hEntry
      have hNonneg := duration_nonneg t
      rw [duration, number_of_entry rfl hEntry]
      omega

/-! ## §3. Items that come back. -/

theorem clamp_pos {n high : Int} (hn : 0 < n) (hHigh : 0 < high) : 0 < clamp 0 high n := by
  unfold clamp
  omega

/-- **A restored item has time left** if the stored one had, or had no time. -/
theorem lasting_of_restored {new : Item} (hType : c.get? i.typeId = some t)
    (hRestored : Restored c t i new) (hUnspent : i.Unspent c) : new.Lasting c := by
  intro t' ht' hDecays
  rw [hRestored.typeId, hType] at ht'
  obtain rfl := Option.some_inj.1 ht'
  have hDuration := hRestored.duration
  rw [duration, hDuration]
  split_ifs with hHas
  · exact clamp_pos (hUnspent t hType hDecays hHas) (by decide)
  · exact duration_pos_of_canDecay hDecays

/-- An item of the map with the fields of a stored item of a type that decays has time left
whenever it has a time. -/
theorem positive_applyAll {base : Item} (hBase : base.Ticking c) (hUnspent : i.Unspent c)
    {host : ItemType} (hType : c.get? i.typeId = some t) (hDecays : t.canDecay = true) :
    (base.applyAll c ((i.fields c).filterMap (Field.update? (some host.variant)))).has .duration
        = true →
      0 < (base.applyAll c ((i.fields c).filterMap
        (Field.update? (some host.variant)))).duration := by
  intro hHas
  have hEntry := entry_applyAll_duration (c := c) (t := host) (i := i) base
  split_ifs at hEntry with hGiven
  · rw [duration, number_of_entry rfl hEntry]
    exact clamp_pos (hUnspent t hType hDecays hGiven) (by decide)
  · rw [has_eq_of_entry hEntry] at hHas
    rw [duration, number_eq_of_entry hEntry]
    exact hBase.positive hHas

/-- **An item of the map with the fields of a stored item of its type** has time left. -/
theorem lasting_applyAll {base : Item} (hBase : base.Ticking c) (hUnspent : i.Unspent c)
    (hSame : base.typeId = i.typeId) (host : ItemType) :
    (base.applyAll c ((i.fields c).filterMap (Field.update? (some host.variant)))).Lasting c := by
  intro t ht hDecays
  rw [typeId_applyAll] at ht
  have hEntry := entry_applyAll_duration (c := c) (t := host) (i := i) base
  split_ifs at hEntry with hGiven
  · rw [duration, number_of_entry rfl hEntry]
    exact clamp_pos (hUnspent t (hSame ▸ ht) hDecays hGiven) (by decide)
  · rw [duration, number_eq_of_entry hEntry]
    exact hBase.lasting t ht hDecays

/-- **An item that gets another type has time left**, if it had whenever it had a time: either its
time goes on, or it has that of the new type. -/
theorem lasting_become {newType : TypeId}
    (hTime : ∀ t, c.get? newType = some t → t.canDecay = true → i.has .duration = true →
      0 < i.duration) : (i.become c newType).Lasting c := by
  intro t ht hDecays
  rw [typeId_become] at ht
  have hPos := duration_pos_of_canDecay hDecays
  have hKnows : t.KnowsDecay := .inl (by omega)
  have hEntry := entry_become i ht .duration
  rw [if_neg (by decide), if_neg (by decide), if_neg (not_not.2 hKnows)] at hEntry
  by_cases hAnew : i.StartsAnew c t
  · rw [if_pos hAnew] at hEntry
    rw [duration, number_of_entry rfl hEntry]
    exact hPos
  · -- Its time goes on.
    have hHas : i.has .duration = true := by
      by_contra h
      exact hAnew ⟨hPos, .inr (Bool.eq_false_iff.2 h)⟩
    rw [if_neg hAnew] at hEntry
    rw [duration, number_eq_of_entry hEntry]
    exact hTime t ht hDecays hHas

end Item

end Homestead
