/-
  Homestead.Proofs.Record.Source
  ──────────────────────────────
  **WHICH FIELD AN ATTRIBUTE IS READ FROM.**

  Most attributes have one field of their own.  Charges and the fluid do
  not: they are the sub type of some types, and fields for the sub type
  write them.

  Main results:
    * `Field.makes_of_update?` — the updates that fields of a name can make;
    * `Tag.Makes.target?` — what such an update writes goes with the name.
-/
import Homestead.Proofs.Record.Update
import Homestead.Proofs.Text.Utf8

open Homestead.Stream

namespace Homestead

open Record

/-! ## §1. Which field a kind is read from. -/

/-- The field that the attribute of a kind is read from, for the kinds that have one field of
their own. -/
def Kind.tag? : Kind → Option Tag
  | actionId => some .actionId
  | movementId => some .movementId
  | description => some .description
  | text => some .text
  | writtenDate => some .writtenDate
  | writer => some .writer
  | name => some .name
  | article => some .article
  | pluralName => some .pluralName
  | weight => some .weight
  | attack => some .attack
  | defense => some .defense
  | armor => some .armor
  | shootRange => some .shootRange
  | missileEffect => some .missileEffect
  | duration => some .duration
  | decayState => some .decayState
  | doorId => some .doorId
  | keyNumber => some .keyNumber
  | keyholeNumber => some .keyholeNumber
  | doorLevel => some .doorLevel
  | doorQuestNumber => some .doorQuestNumber
  | doorQuestValue => some .doorQuestValue
  | chestQuestNumber => some .chestQuestNumber
  | lifeLeech => some .lifeLeech
  | manaLeech => some .manaLeech
  | critical => some .critical
  | reflection => some .reflection
  | charges | fluidType | corpseOwner => none

/-- The attribute that a field writes, for an item whose sub type has the given meaning. -/
def Record.Tag.target? (m : Item.SubTypeMeaning) : Tag → Option Kind
  | .count | .runeCharges | .charges => m.kind?
  | .duration => some .duration
  | .decayState => some .decayState
  | .doorId => some .doorId
  | t => t.kind?

/-- The attribute that a tag writes is its own, or the sub type. -/
theorem Record.Tag.target?_eq_some {m : Item.SubTypeMeaning} {t : Tag} {k : Kind}
    (h : t.target? m = some k) :
    k.tag? = some t ∨ (k = .charges ∨ k = .fluidType)
      ∧ (t = .count ∨ t = .runeCharges ∨ t = .charges) := by
  have hSub : m.kind? = some k → k = .charges ∨ k = .fluidType := by
    intro h
    cases m <;> cases h
    · exact .inr rfl
    · exact .inl rfl
  cases t <;> first
    | exact .inr ⟨hSub h, by decide⟩
    | (injection h with h; subst h; exact .inl rfl)
    | cases h

/-- A field that writes an attribute straight away. -/
theorem Record.Field.update?_number {host : Option Variant} {t : Tag} {k : Kind} {d : Datum}
    {n : Int} (ht : t.kind? = some k) (hd : numberOf? d = some n) :
    Field.update? host ⟨t, [d]⟩ = some (.number k n) := by
  cases d <;> try cases hd
  all_goals
    cases t <;> first
      | cases ht
        done
      | (injection ht with ht; subst ht; rfl)

/-- A field that holds a text updates it to as much as a field can hold. -/
theorem Record.Field.update?_text {host : Option Variant} {t : Tag} {k : Kind} (s : String)
    (ht : t.kind? = some k) :
    Field.update? host ⟨t, [.text s]⟩
      = some (.text k (String.ofList (Text.clip 65535 s.toList))) := by
  rw [← Text.ofOctets_utf8Octets]
  cases t <;> first
    | (injection ht with ht; subst ht; rfl)
    | cases ht

/-- Which updates fields of a name can make. -/
inductive Record.Tag.Makes (t : Tag) : Update → Prop where
  /-- Fields for the sub type. -/
  | subType (n : UInt16) (h : t = .count ∨ t = .runeCharges ∨ t = .charges) : Makes t (.subType n)
  /-- Fields for a number that is written straight away. -/
  | number {k : Kind} (n : Int) (h : t.kind? = some k) : Makes t (.number k n)
  /-- Fields for a text. -/
  | text {k : Kind} (s : String) (h : t.kind? = some k) : Makes t (.text k s)
  /-- Fields for the number of a door. -/
  | doorId (n : Int) (h : t = .doorId) : Makes t (.number .doorId n)
  /-- Fields for the time until the item decays. -/
  | duration (n : Int) (h : t = .duration) : Makes t (.duration n)
  /-- Fields for the state of the decay. -/
  | decayPending (h : t = .decayState) : Makes t .decayPending
  /-- Fields for the number of a depot. -/
  | depotId (n : UInt16) (h : t = .depotId) : Makes t (.depotId n)
  /-- Fields for who sleeps in a bed. -/
  | sleeper (id : UInt32) (h : t = .sleeper) : Makes t (.sleeper id)
  /-- Fields for the time since when the sleeper sleeps. -/
  | sleepStart (time : UInt32) (h : t = .sleepStart) : Makes t (.sleepStart time)
  /-- Fields for where a teleport leads. -/
  | destination (p : Position) (h : t = .destination) : Makes t (.destination p)

/-- The update of a field is one that its tag makes. -/
theorem Record.Field.makes_of_update? {host : Option Variant} {f : Field} {u : Update}
    (h : f.update? host = some u) : f.tag.Makes u := by
  have hGuard : ∀ {p : Prop} [Decidable p] {u' : Update},
      (if p then some u' else none) = some u → u' = u :=
    fun h => Option.some_inj.1 (Option.ite_none_right_eq_some.1 h).2
  -- One case for each row of the table, in its order.
  unfold Field.update? at h
  split at h
  next ht _ => exact Option.some_inj.1 h ▸ .subType _ (.inl ht)
  next ht _ => exact Option.some_inj.1 h ▸ .subType _ (.inr (.inl ht))
  next ht _ => exact Option.some_inj.1 h ▸ .subType _ (.inr (.inr ht))
  next ht _ => exact Option.some_inj.1 h ▸ .duration _ ht
  next ht _ => exact hGuard h ▸ .decayPending ht
  next ht _ => exact hGuard h ▸ .depotId _ ht
  next ht _ => exact hGuard h ▸ .doorId _ ht
  next ht _ => exact hGuard h ▸ .sleeper _ ht
  next ht _ => exact hGuard h ▸ .sleepStart _ ht
  next ht _ => exact hGuard h ▸ .destination _ ht
  next =>
    obtain ⟨k, hk, hu⟩ := Option.map_eq_some_iff.1 h
    exact hu ▸ .text _ hk
  next =>
    split at h
    next hk _ => exact Option.some_inj.1 h ▸ .number _ hk
    next => cases h
  next => cases h

/-- Every update of some fields is made by a tag. -/
theorem Record.Field.exists_makes (host : Option Variant) (fs : List Field) :
    ∀ u ∈ fs.filterMap (Field.update? host), ∃ tag : Tag, tag.Makes u := by
  intro u hu
  obtain ⟨f, _, hUpdate⟩ := List.mem_filterMap.1 hu
  exact ⟨f.tag, makes_of_update? hUpdate⟩

/-- What an update writes is the attribute that goes with the name of the field it comes from. -/
theorem Record.Tag.Makes.target? {m : Item.SubTypeMeaning} {t : Tag} {u : Update} {k : Kind}
    {v : AttributeValue} (h : t.Makes u) (hv : u.entry? m = some (k, v)) :
    t.target? m = some k := by
  -- A field that writes straight away writes under its own kind.
  have hDirect : ∀ {k' : Kind}, t.kind? = some k' → k' = k → t.target? m = some k := by
    rintro k' h rfl
    cases t <;> first | exact h | cases h
  cases h with
  | subType n h =>
    obtain ⟨k', hk, he⟩ := Option.map_eq_some_iff.1 hv
    rw [← (Prod.mk.inj he).1]
    rcases h with rfl | rfl | rfl <;> exact hk
  | number n h =>
    have hEntry := (Option.ite_none_right_eq_some.1 hv).2
    exact hDirect h (Prod.mk.inj (Option.some_inj.1 hEntry)).1
  | text s h =>
    have hEntry := (Option.ite_none_right_eq_some.1 hv).2
    exact hDirect h (Prod.mk.inj (Option.some_inj.1 hEntry)).1
  | doorId n h =>
    rw [h, ← (Prod.mk.inj (Option.some_inj.1 hv)).1]
    rfl
  | duration n h =>
    rw [h, ← (Prod.mk.inj (Option.some_inj.1 hv)).1]
    rfl
  | decayPending h =>
    rw [h, ← (Prod.mk.inj (Option.some_inj.1 hv)).1]
    rfl
  | _ => cases hv

namespace Item

/-- Fields make the state of the decay pending, if they write it at all. -/
theorem entryWrites_decayState {m : SubTypeMeaning} {tag : Tag} {u : Update}
    {e : Bool × Option AttributeValue} (h : tag.Makes u)
    (he : entryWrites m .decayState u = some e) : e = (true, some (.number 2)) := by
  obtain ⟨v, hv, rfl⟩ := entryWrites_eq_some.1 he
  rcases Tag.target?_eq_some (h.target? hv) with hTag | ⟨hKind, _⟩
  · obtain rfl := Option.some_inj.1 hTag
    -- Of what fields of that name make, only the pending state is written there.
    cases h with
    | decayPending _ =>
      obtain rfl := (Prod.mk.inj (Option.some_inj.1 hv)).2
      rfl
    | subType _ h => simp at h
    | number _ h => cases h
    | text _ h => cases h
    | doorId _ h => cases h
    | duration _ h => cases h
    | _ => cases hv
  · simp at hKind

/-- **Fields never let time run**: they leave the state of the decay, or make it pending. -/
theorem decayState_applyAll (c : Catalog) (i : Item) {us : List Update}
    (hus : ∀ u ∈ us, ∃ tag : Tag, tag.Makes u) :
    (i.applyAll c us).decayState = i.decayState ∨ (i.applyAll c us).decayState = .pending := by
  -- Each field leaves the entry or writes a 2, so that after all of them one of both is there.
  have hState := (sees_entry (c := c) (i.meaning c) .decayState).eq_or_eq
    (a := (true, some (.number 2))) us (by
      intro u hu e he
      obtain ⟨tag, hMakes⟩ := hus u hu
      exact entryWrites_decayState hMakes he)
  rcases hState with hState | hState
  · right
    rw [decayState, number_of_entry rfl hState]
    rfl
  · exact .inl (decayState_eq_of_entry hState)

end Item

end Homestead
