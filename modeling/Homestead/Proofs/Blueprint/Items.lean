/-
  Homestead.Proofs.Blueprint.Items
  ────────────────────────────────
  **WHAT THE ITEMS OF A BLUEPRINT ARE LIKE.**

  Building a blueprint may fail, and counts and notes on the way.  What is
  said here is about the value that a step gives, if it gives one.  A tree
  that is built from an entry has contents in containers only; its items
  are in the variants of their types and have time left if they decay.

  Main results:
    * `Yields`, `yields_bind`, `yields_foldlM` — what a step gives;
    * `yields_build` — the tree of an entry.
-/
import Homestead.Blueprint.Build
import Homestead.Proofs.Graph.Items
import Homestead.Proofs.Record.Time

namespace Homestead

/-! ## §1. What a step gives. -/

namespace Drafting

variable {α β : Type}

/-- If the step gives a value, the value has the property. -/
def Yields (x : Drafting α) (P : α → Prop) : Prop :=
  ∀ d a, (x.run d).1 = .ok a → P a

/-- A value that is given outright has the property if it does. -/
theorem yields_pure {P : α → Prop} {a : α} (h : P a) : Yields (pure a) P := by
  intro d b hb
  cases hb
  exact h

/-- A failure yields nothing, so it may be said to yield anything. -/
theorem yields_throw {P : α → Prop} (e : BlueprintError) : Yields (throw e) P := by
  intro d a h
  cases h

/-- An outcome that is computed outside of the draft has the property if it succeeds so. -/
theorem yields_ofExcept {P : α → Prop} {x : Except BlueprintError α}
    (h : ∀ a, x = .ok a → P a) : Yields (MonadExcept.ofExcept x) P := by
  cases x with
  | error e => exact yields_throw e
  | ok a => exact yields_pure (h a rfl)

/-- One step and then another: the draft goes through both, or stops at the first failure. -/
theorem run_bind (x : Drafting α) (f : α → Drafting β) (d : Draft) :
    (x >>= f).run d = match x.run d with
      | (.ok a, d') => (f a).run d'
      | (.error e, d') => (.error e, d') := by
  show (ExceptT.bindCont f (x.run d).1).run (x.run d).2 = _
  rcases x.run d with ⟨result, d'⟩
  cases result <;> rfl

/-- **One step after another.** -/
theorem yields_bind {x : Drafting α} {f : α → Drafting β} {P : α → Prop} {Q : β → Prop}
    (hx : Yields x P) (hf : ∀ a, P a → Yields (f a) Q) : Yields (x >>= f) Q := by
  intro d b h
  rw [run_bind] at h
  cases hRun : x.run d with
  | mk result d' =>
    rw [hRun] at h
    cases result with
    | error e => cases h
    | ok a => exact hf a (hx d a (by rw [hRun])) d' b h

/-- A step whose value does not matter. -/
theorem yields_any {x : Drafting α} : Yields x fun _ => True :=
  fun _ _ _ => trivial

/-- What is yielded has every property that follows. -/
theorem Yields.imp {x : Drafting α} {P Q : α → Prop} (h : Yields x P) (hPQ : ∀ a, P a → Q a) :
    Yields x Q :=
  fun d a ha => hPQ a (h d a ha)

/-- What is yielded has both properties. -/
theorem Yields.and {x : Drafting α} {P Q : α → Prop} (h : Yields x P) (h' : Yields x Q) :
    Yields x fun a => P a ∧ Q a :=
  fun d a ha => ⟨h d a ha, h' d a ha⟩

/-- **The same step for one element after another**, of which each may rely on what has been done
with those before it. -/
theorem yields_foldlM_done {f : α → β → Drafting α} {P : List β → α → Prop}
    (hf : ∀ done a b, P done a → Yields (f a b) (P (done ++ [b]))) (bs : List β)
    (done : List β) {a : α} (ha : P done a) : Yields (bs.foldlM f a) (P (done ++ bs)) := by
  induction bs generalizing done a with
  | nil =>
    rw [List.append_nil]
    exact yields_pure ha
  | cons b bs ih =>
    rw [List.foldlM_cons, List.append_cons]
    exact yields_bind (hf done a b ha) fun a' ha' => ih (done ++ [b]) ha'

/-- The same step for one element after another, if what it relies on is always the same. -/
theorem yields_foldlM {f : α → β → Drafting α} {P : α → Prop}
    (hf : ∀ a b, P a → Yields (f a b) P) (bs : List β) {a : α} (ha : P a) :
    Yields (bs.foldlM f a) P :=
  yields_foldlM_done (P := fun _ => P) (fun _ => hf) bs [] ha

end Drafting

open Drafting

/-! ## §2. Items. -/

namespace Item

variable {c : Catalog}

/-- What an item keeps when more is drawn of it: its type, its kind and its time. -/
structure SameBody (i i' : Item) : Prop where
  /-- The type is the same. -/
  typeId : i'.typeId = i.typeId
  /-- The variants are of one kind. -/
  kind : i'.variant.sameKind i.variant = true
  /-- The time is the same. -/
  time : ∀ k, AboutTime k → i'.entry k = i.entry k

theorem SameBody.refl (i : Item) : SameBody i i :=
  ⟨rfl, Variant.sameKind_refl _, fun _ _ => rfl⟩

/-- What keeps the body twice keeps it. -/
theorem SameBody.trans {i i' i'' : Item} (h : SameBody i i') (h' : SameBody i' i'') :
    SameBody i i'' :=
  ⟨h'.typeId.trans h.typeId, Variant.sameKind_trans h'.kind h.kind,
    fun k hk => (h'.time k hk).trans (h.time k hk)⟩

/-- Numbers that are not about time leave the body. -/
theorem sameBody_setNumber (i : Item) {k : Kind} (n : Int) (hk : ¬ AboutTime k) :
    SameBody i (i.setNumber k n) := by
  refine ⟨rfl, Variant.sameKind_refl _, ?_⟩
  intro k' hk'
  rw [entry_setNumber, if_neg]
  exact fun h => hk (h.1 ▸ hk')

/-- A text leaves the body. -/
theorem sameBody_setText (i : Item) (s : String) : SameBody i (i.setText .text s) := by
  refine ⟨typeId_setText i .text s, ?_, ?_⟩
  · rw [variant_setText]
    exact Variant.sameKind_refl _
  · intro k hk
    rw [entry_setText, if_neg]
    rintro ⟨rfl, _⟩
    exact absurd hk (by unfold AboutTime; decide)

/-- A variant of the same kind leaves the body. -/
theorem sameBody_setVariant (i : Item) {v : Variant} (h : v.sameKind i.variant = true) :
    SameBody i { i with variant := v } :=
  ⟨rfl, h, fun _ _ => rfl⟩

/-- A door that is numbered keeps its body. -/
theorem sameBody_withDoorNumber {i i' : Item} {number : UInt32}
    (h : i.withDoorNumber number = .ok i') : SameBody i i' := by
  unfold withDoorNumber at h
  split_ifs at h
  · cases h
    exact SameBody.refl i
  · cases h
    exact sameBody_setNumber i _ (by unfold AboutTime; decide)

/-- A teleport that is given a destination keeps its body. -/
theorem sameBody_withDestination {i i' : Item} {destination : Option Position}
    (h : i.withDestination destination = .ok i') : SameBody i i' := by
  unfold withDestination at h
  cases destination with
  | none =>
    cases h
    exact SameBody.refl i
  | some p =>
    dsimp only at h
    split_ifs at h
    cases h
    refine sameBody_setVariant i ?_
    cases i.variant <;> rfl

/-- **What is drawn of an item changes neither its type, nor its kind, nor its time.** -/
theorem sameBody_finish {s : ItemSketch} {i i' : Item} (h : s.finish i = .ok i') :
    SameBody i i' := by
  unfold ItemSketch.finish at h
  have hAction : SameBody i
      (if s.actionId ≠ 0 then i.setNumber .actionId s.actionId.toNat else i) := by
    split_ifs
    · exact sameBody_setNumber i _ (by unfold AboutTime; decide)
    · exact SameBody.refl i
  -- The door is numbered first, then the text set, then the destination.
  dsimp only at h
  generalize (if s.actionId ≠ 0 then i.setNumber .actionId s.actionId.toNat else i) = i₁
    at hAction h
  cases hDoor : i₁.withDoorNumber s.doorId with
  | error e =>
    rw [hDoor] at h
    cases h
  | ok i₂ =>
    rw [hDoor] at h
    refine ((hAction.trans (sameBody_withDoorNumber hDoor)).trans ?_).trans
      (sameBody_withDestination h)
    cases s.text with
    | some text => exact sameBody_setText i₂ text
    | none => exact SameBody.refl i₂

/-- An item as the map gives it: of a type that the catalog has, in the variant of the type, and
with time left that does not run yet. -/
structure Drawn (c : Catalog) (i : Item) : Prop where
  /-- The catalog has its type. -/
  known : ∃ t, c.get? i.typeId = some t
  /-- It is in the variant of its type. -/
  typed : i.Typed c
  /-- It has time left. -/
  ticking : i.Ticking c
  /-- Its time does not run. -/
  still : i.decayState = .idle

/-- An item with the body of one that the map gives is one too. -/
theorem Drawn.of_sameBody {i i' : Item} (h : i.Drawn c) (hSame : SameBody i i') : i'.Drawn c where
  known := by
    rw [hSame.typeId]
    exact h.known
  typed := h.typed.of_sameKind hSame.typeId hSame.kind
  ticking := h.ticking.of_time hSame.typeId (hSame.time _ (.inl rfl))
  still := (congrArg DecayState.ofNumber (number_eq_of_entry (hSame.time _ (.inr rfl)))).trans h.still

/-- A new item is as the map gives it. -/
theorem drawn_create? {id : TypeId} {n : UInt16} {i : Item} (h : create? c id n = some i) :
    i.Drawn c := by
  have hTyped := typed_create? h
  obtain ⟨t, ht, rfl⟩ := Option.map_eq_some_iff.1 h
  have hGet := Catalog.get?_of_usable? ht
  have hOwn : c.get? t.id = some t := by rw [Catalog.id_of_get? hGet, hGet]
  refine ⟨⟨t, by rw [typeId_ofType, hOwn]⟩, hTyped, ticking_ofType hOwn n, ?_⟩
  rw [decayState, number_of_not_has (has_of_entry (entry_ofType_decayState n))]
  rfl

end Item

/-! ## §3. Entries. -/

/-- A tree as the map gives it. -/
def ItemTree.Drawn (c : Catalog) (t : ItemTree) : Prop :=
  t.Every ItemTree.Hollow ∧ t.Every fun i _ => i.Drawn c

mutual

/-- **The tree of an entry** has contents in containers only, and its items are as the map gives
them. -/
theorem yields_build (c : Catalog) : ∀ e : ItemEntry,
    Yields (e.build c) fun o => ∀ t, o = some t → t.Drawn c
  | .mk sketch contents => by
    rw [ItemEntry.build]
    cases hNew : Item.create? c sketch.typeId sketch.count with
    | none =>
      refine yields_bind yields_any fun _ _ => yields_bind yields_any fun _ _ => ?_
      exact yields_pure fun t ht => by cases ht
    | some new =>
      refine yields_bind (P := fun item => Item.Drawn c item) (yields_ofExcept ?_) ?_
      · exact fun i h => (Item.drawn_create? hNew).of_sameBody (Item.sameBody_finish h)
      · intro item hItem
        refine yields_bind yields_any fun _ _ => ?_
        -- The contents first: the item is built around them.
        refine yields_bind (yields_buildContents c item contents) ?_
        intro trees hTrees
        refine yields_pure ?_
        intro t ht
        cases ht
        exact ⟨⟨hTrees.1, hTrees.2.1⟩, hItem, hTrees.2.2⟩

/-- Building contents yields trees as the map gives them, and none in what is no container, by
induction over the entries. -/
theorem yields_buildContents (c : Catalog) (holder : Item) : ∀ es : List ItemEntry,
    Yields (ItemEntry.buildContents c holder es) fun ts =>
      ItemTree.Hollow holder ts ∧ ItemTree.EveryOf ItemTree.Hollow ts
        ∧ ItemTree.EveryOf (fun i _ => i.Drawn c) ts
  | [] => by
    rw [ItemEntry.buildContents]
    exact yields_pure ⟨fun h => absurd rfl h, trivial, trivial⟩
  | e :: es => by
    rw [ItemEntry.buildContents]
    refine yields_bind (yields_build c e) ?_
    intro o ho
    cases o with
    | none => exact yields_buildContents c holder es
    | some tree =>
      have hTree := ho tree rfl
      dsimp only
      split_ifs with hHolds
      · -- Contents in what holds nothing: the blueprint is refused.
        exact yields_bind (P := fun _ => False) (yields_throw _) fun _ h => h.elim
      · refine yields_bind (yields_buildContents c holder es) ?_
        intro trees hTrees
        refine yields_pure ⟨fun _ => by simpa using hHolds, ⟨hTree.1, hTrees.2.1⟩, hTree.2,
          hTrees.2.2⟩

end

end Homestead
