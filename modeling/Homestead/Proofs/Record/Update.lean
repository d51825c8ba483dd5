/-
  Homestead.Proofs.Record.Update
  ──────────────────────────────
  **WHAT AN UPDATE WRITES.**

  An update writes one attribute, or the count, or the variant.  So the
  entry of a kind after many updates is what the last one writes that
  writes the kind, and the one from before when none of them does.

  Main results:
    * `entry_apply` — the entries after one update;
    * `Sees.last` — what is seen of an item after many updates, with
      `sees_entry` and `sees_count` for what there is to see;
    * `sameKind_variant_applyAll` — updates never make an item one that can
      do something else.
-/
import Homestead.Record.Basic
import Homestead.Proofs.Item.Values

namespace Homestead

open Record

/-! ## §1. Entries. -/

/-- The attribute that an update writes and the value that it gets, for an item whose sub type has
the given meaning. -/
def Record.Update.entry? (m : Item.SubTypeMeaning) : Update → Option (Kind × AttributeValue)
  | .subType n => m.kind?.map fun k => (k, .number n.toNat)
  | .number k n => if k.isNumber then some (k, .number n) else none
  | .text k s => if k.isText ∧ s ≠ "" then some (k, .text s) else none
  | .duration n => some (.duration, .number (max n 0))
  | .decayPending => some (.decayState, .number 2)
  | .depotId _ | .sleeper _ | .sleepStart _ | .destination _ => none

namespace Item

variable (c : Catalog) (i : Item)

/-- An attribute of a record is no change of type. -/
theorem typeId_apply (u : Update) : (i.apply c u).typeId = i.typeId := by
  cases u <;> simp [apply, setDuration, setDecayState]

/-- What the sub type of an item means is told by its type. -/
theorem meaning_eq_of_typeId {i i' : Item} (h : i.typeId = i'.typeId) :
    i.meaning c = i'.meaning c := by
  rw [meaning, meaning, h]

/-- The sub type of an item means the same after an attribute of a record. -/
theorem meaning_apply (u : Update) : (i.apply c u).meaning c = i.meaning c :=
  meaning_eq_of_typeId c (typeId_apply c i u)

/-- **After an update, the entry that it writes is there and the others are as before.** -/
theorem entry_apply (u : Update) (k : Kind) :
    (i.apply c u).entry k
      = match u.entry? (i.meaning c) with
        | some (k', v) => if k = k' then (true, some v) else i.entry k
        | none => i.entry k := by
  -- The last four updates write the variant, and no entry.
  cases u with
  | subType n =>
    show (i.setSubType c n).entry k = _
    rw [entry_setSubType, Update.entry?]
    cases (i.meaning c).kind? with
    | none => rfl
    | some k' => simp [eq_comm]
  | number k' n =>
    show (i.setNumber k' n).entry k = _
    rw [entry_setNumber, Update.entry?]
    by_cases hk : k'.isNumber <;> simp [hk]
  | text k' s =>
    show (i.setText k' s).entry k = _
    rw [entry_setText, Update.entry?]
    by_cases hk : k'.isText ∧ s ≠ ""
    · simp [hk]
    · rw [if_neg hk, if_neg fun h => hk h.2]
  | duration n =>
    show (i.setNumber .duration (max n 0)).entry k = _
    rw [entry_setNumber]
    simp [Update.entry?, Kind.isNumber, Kind.isText]
  | decayPending =>
    show (i.setNumber .decayState 2).entry k = _
    rw [entry_setNumber]
    simp [Update.entry?, Kind.isNumber, Kind.isText]
  | depotId n => rfl
  | sleeper id => rfl
  | sleepStart time => rfl
  | destination p => rfl

/-- The attributes are applied one after the other, the first one first. -/
theorem applyAll_cons (u : Update) (us : List Update) :
    i.applyAll c (u :: us) = (i.apply c u).applyAll c us := rfl

/-- Applying two lists of attributes is applying the one and then the other. -/
theorem applyAll_append (us vs : List Update) :
    i.applyAll c (us ++ vs) = (i.applyAll c us).applyAll c vs :=
  List.foldl_append

/-- The attributes of a record are no change of type. -/
theorem typeId_applyAll (us : List Update) : (i.applyAll c us).typeId = i.typeId := by
  induction us generalizing i with
  | nil => rfl
  | cons u us ih => rw [applyAll_cons, ih, typeId_apply]

/-! ## §2. Many updates. -/

/-- `look` sees of an update, made to an item whose sub type has the meaning `m`, just the value
that `writes` gives for it. -/
def Sees {α : Type} (m : SubTypeMeaning) (look : Item → α) (writes : Update → Option α) : Prop :=
  ∀ (i : Item) (u : Update), i.meaning c = m → look (i.apply c u) = (writes u).getD (look i)

variable {c i}

/-- **Of many updates the last one counts** that writes something to see. -/
theorem Sees.last {α : Type} {look : Item → α} {writes : Update → Option α}
    (h : Sees c (i.meaning c) look writes) (us : List Update) :
    look (i.applyAll c us) = (us.reverse.findSome? writes).getD (look i) := by
  induction us generalizing i with
  | nil => rfl
  | cons u us ih =>
    have hNext : Sees c ((i.apply c u).meaning c) look writes := meaning_apply c i u ▸ h
    rw [applyAll_cons, ih hNext, h i u rfl, List.reverse_cons, List.findSome?_append]
    cases us.reverse.findSome? writes with
    | none => cases hw : writes u <;> simp [hw]
    | some a => rfl

/-- Updates that write nothing to see leave the look alone. -/
theorem Sees.of_spared {α : Type} {look : Item → α} {writes : Update → Option α}
    (h : Sees c (i.meaning c) look writes) (us : List Update)
    (hus : ∀ u ∈ us, writes u = none) : look (i.applyAll c us) = look i := by
  rw [h.last, List.findSome?_eq_none_iff.2 fun u hu => hus u (List.mem_reverse.1 hu)]
  rfl

/-- Where the updates that write something to see agree on it, and there is one, it is seen. -/
theorem Sees.of_agreed {α : Type} {look : Item → α} {writes : Update → Option α} {a : α}
    (h : Sees c (i.meaning c) look writes) (us : List Update)
    (hSome : ∃ u ∈ us, writes u = some a)
    (hAll : ∀ u ∈ us, ∀ b, writes u = some b → b = a) : look (i.applyAll c us) = a := by
  rw [h.last]
  cases hLast : us.reverse.findSome? writes with
  | none =>
    obtain ⟨u, hu, hw⟩ := hSome
    rw [List.findSome?_eq_none_iff.1 hLast u (List.mem_reverse.2 hu)] at hw
    cases hw
  | some b =>
    obtain ⟨u, hu, hw⟩ := List.exists_of_findSome?_eq_some hLast
    exact hAll u (List.mem_reverse.1 hu) b hw

/-- Where all updates that write something to see agree on it, either that is seen or nothing has
changed. -/
theorem Sees.eq_or_eq {α : Type} {look : Item → α} {writes : Update → Option α} {a : α}
    (h : Sees c (i.meaning c) look writes) (us : List Update)
    (hAll : ∀ u ∈ us, ∀ b, writes u = some b → b = a) :
    look (i.applyAll c us) = a ∨ look (i.applyAll c us) = look i := by
  by_cases hSome : ∃ u ∈ us, writes u = some a
  · exact .inl (h.of_agreed us hSome hAll)
  · refine .inr (h.of_spared us ?_)
    intro u hu
    cases hw : writes u with
    | none => rfl
    | some b => exact absurd ⟨u, hu, hAll u hu b hw ▸ hw⟩ hSome

/-- What of the entry of a kind an update writes. -/
def entryWrites (m : SubTypeMeaning) (k : Kind) (u : Update) :
    Option (Bool × Option AttributeValue) :=
  (u.entry? m).bind fun e => if k = e.1 then some (true, some e.2) else none

/-- An attribute that writes an entry writes a value that is there. -/
theorem entryWrites_eq_some {m : SubTypeMeaning} {k : Kind} {u : Update}
    {e : Bool × Option AttributeValue} :
    entryWrites m k u = some e ↔ ∃ v, u.entry? m = some (k, v) ∧ e = (true, some v) := by
  unfold entryWrites
  cases u.entry? m with
  | none => simp
  | some p =>
    obtain ⟨k', v⟩ := p
    by_cases h : k = k'
    · simp [h, eq_comm]
    · simp [h, Ne.symm h]

/-- An entry sees those attributes that write it, and nothing of the others. -/
theorem sees_entry (m : SubTypeMeaning) (k : Kind) :
    Sees c m (fun i => i.entry k) (entryWrites m k) := by
  rintro i u rfl
  show (i.apply c u).entry k = _
  rw [entry_apply, entryWrites]
  cases u.entry? (i.meaning c) with
  | none => rfl
  | some e =>
    obtain ⟨k', v⟩ := e
    by_cases h : k = k' <;> simp [h]

/-- What of the count an update writes. -/
def countWrites (m : SubTypeMeaning) : Update → Option UInt8
  | .subType n => if m = .count then some (clampU8 n.toNat) else none
  | _ => none

/-- The count sees those attributes that write it, and nothing of the others. -/
theorem sees_count (m : SubTypeMeaning) : Sees c m (·.count) (countWrites m) := by
  rintro i u rfl
  cases u with
  | subType n =>
    show (i.setSubType c n).count = _
    rw [count_setSubType, countWrites]
    by_cases h : i.meaning c = .count <;> simp [h]
  | text k s => exact count_setText i k s
  | _ => rfl

end Item

/-! ## §3. Variants. -/

/-- What an update makes of a variant. -/
def Record.Update.onVariant : Update → Variant → Variant
  | .depotId n, v => v.setDepot n
  | .sleeper id, v => v.setSleeper id
  | .sleepStart time, v => v.setSleepStart time
  | .destination p, v => v.setDestination p
  | _, v => v

theorem Variant.sameKind_refl (v : Variant) : v.sameKind v = true := by
  cases v <;> rfl

/-- Being of the same kind carries over. -/
theorem Variant.sameKind_trans {u v w : Variant} (h : u.sameKind v = true)
    (h' : v.sameKind w = true) : u.sameKind w = true := by
  cases u <;> cases v <;> first | (cases h; done) | (cases w <;> first | rfl | cases h')

/-- Variants of one kind hold items, or neither does. -/
theorem Variant.isContainer_eq_of_sameKind {u v : Variant} (h : u.sameKind v = true) :
    u.isContainer = v.isContainer := by
  cases u <;> cases v <;> first | rfl | cases h

/-- Variants of the same kind are doors together. -/
theorem Variant.isDoor_eq_of_sameKind {u v : Variant} (h : u.sameKind v = true) :
    u.isDoor = v.isDoor := by
  cases u <;> cases v <;> first | rfl | cases h

/-- Variants of the same kind are beds together. -/
theorem Variant.isBed_eq_of_sameKind {u v : Variant} (h : u.sameKind v = true) :
    u.isBed = v.isBed := by
  cases u <;> cases v <;> first | rfl | cases h

/-- An attribute leaves the kind of a variant. -/
theorem Variant.sameKind_onVariant (v : Variant) (u : Update) :
    (u.onVariant v).sameKind v = true := by
  cases u <;> cases v <;> rfl

namespace Item

variable (c : Catalog) (i : Item)

/-- What an attribute does to the variant depends on the variant alone. -/
theorem variant_apply (u : Update) : (i.apply c u).variant = u.onVariant i.variant := by
  cases u <;> simp [apply, Update.onVariant, setDuration, setDecayState]

/-- **Updates never make an item one that can do something else.** -/
theorem sameKind_variant_applyAll (us : List Update) :
    (i.applyAll c us).variant.sameKind i.variant = true := by
  induction us generalizing i with
  | nil => exact Variant.sameKind_refl _
  | cons u us ih =>
    have hStep := Variant.sameKind_onVariant i.variant u
    rw [← variant_apply c i u] at hStep
    exact Variant.sameKind_trans (ih (i.apply c u)) hStep

/-- Attributes that spare every variant leave the one of the item. -/
theorem variant_applyAll_of_spared (us : List Update)
    (h : ∀ u ∈ us, ∀ v, u.onVariant v = v) : (i.applyAll c us).variant = i.variant := by
  induction us generalizing i with
  | nil => rfl
  | cons u us ih =>
    rw [applyAll_cons, ih (i.apply c u) fun u' hu' => h u' (List.mem_cons_of_mem u hu'),
      variant_apply, h u List.mem_cons_self]

end Item

end Homestead
