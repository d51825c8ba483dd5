/-
  Homestead.Proofs.Record.Built
  ─────────────────────────────
  **WHAT RECORDS ARE BUILT INTO.**

  A record whose type can be used gives an item of the type with the
  updates made to it; its contents are built only if that item holds items.

  Main results:
    * `build_eq_ok`, `buildAll_cons_eq_ok` — what a built record consists
      of;
    * `hollow_of_build`, `every_of_build` — all items of a built tree.
-/
import Homestead.Record.Build
import Homestead.Proofs.Item.Trees
import Homestead.Proofs.Record.Update
import Mathlib.Algebra.Group.Defs

namespace Homestead

instance : Zero Tally := ⟨{}⟩

instance : AddCommMonoid Tally where
  add_assoc a b c := congrArg₂ Tally.mk (Nat.add_assoc _ _ _) (Nat.add_assoc _ _ _)
  zero_add a := congrArg₂ Tally.mk (Nat.zero_add _) (Nat.zero_add _)
  add_zero a := rfl
  add_comm a b := congrArg₂ Tally.mk (Nat.add_comm _ _) (Nat.add_comm _ _)
  nsmul := nsmulRec

/-- The item is in the variant that the catalog gives its type, if the catalog knows the type. -/
def Item.Typed (c : Catalog) (i : Item) : Prop :=
  ∀ t, c.get? i.typeId = some t → i.variant.sameKind t.variant = true

/-- A new item is a container if its type is. -/
theorem ItemType.isContainer_variant (t : ItemType) : t.variant.isContainer = t.isContainer := by
  unfold ItemType.variant ItemType.isContainer
  cases t.group <;> rfl

/-- A usable type is in the catalog. -/
theorem Catalog.get?_of_usable? {c : Catalog} {id : TypeId} {t : ItemType}
    (h : c.usable? id = some t) : c.get? id = some t :=
  (Option.filter_eq_some_iff.1 h).1

/-- A new item is of the right kind for its type. -/
theorem Item.typed_ofType {c : Catalog} {id : TypeId} {t : ItemType} (n : UInt16)
    (h : c.get? id = some t) : (Item.ofType t n).Typed c := by
  intro t' ht'
  rw [typeId_ofType, Catalog.id_of_get? h, h] at ht'
  rw [variant_ofType, Option.some_inj.1 ht']
  exact Variant.sameKind_refl _

/-- A change that keeps the type and the kind of variant keeps an item typed. -/
theorem Item.Typed.of_sameKind {c : Catalog} {i i' : Item} (h : i.Typed c)
    (hType : i'.typeId = i.typeId) (hKind : i'.variant.sameKind i.variant = true) :
    i'.Typed c := by
  intro t ht
  rw [hType] at ht
  exact Variant.sameKind_trans hKind (h t ht)

namespace Record

variable {c : Catalog}

/-! ## §1. What a built record consists of. -/

/-- A record becomes a new item of its type, with its attributes applied. -/
theorem newItem?_eq_some {r : Record} {item : Item} (h : newItem? c r = some item) :
    ∃ t, c.usable? r.typeId = some t ∧ item = (Item.ofType t 0).applyAll c r.updates := by
  unfold newItem? at h
  split at h
  · obtain ⟨new, hNew, rfl⟩ := Option.map_eq_some_iff.1 h
    obtain ⟨t, ht, rfl⟩ := Option.map_eq_some_iff.1 hNew
    exact ⟨t, ht, rfl⟩
  · cases h

/-- The item that a record becomes is of the type of the record. -/
theorem typeId_newItem? {r : Record} {item : Item} (h : newItem? c r = some item) :
    item.typeId = r.typeId := by
  obtain ⟨t, ht, rfl⟩ := newItem?_eq_some h
  rw [Item.typeId_applyAll, Item.typeId_ofType]
  exact Catalog.id_of_get? (Catalog.get?_of_usable? ht)

/-- What a record is built into: an item, and in it what its contents are built into. -/
theorem build_eq_ok {id : TypeId} {known : Bool} {us : List Update}
    {children : Option (List Record)} {t : ItemTree}
    (h : ((mk id known us children).build c).1 = .ok (some t)) :
    ∃ item trees, newItem? c (mk id known us none) = some item ∧ t = .node item trees
      ∧ (children = none ∧ trees = []
        ∨ ∃ rs, children = some rs ∧ item.isContainer = true
          ∧ (buildAll c rs).1 = .ok trees) := by
  rw [build] at h
  cases hNew : newItem? c (mk id known us none) with
  | none =>
    rw [hNew] at h
    cases h
  | some item =>
    rw [hNew] at h
    cases children with
    | none =>
      cases h
      exact ⟨item, [], rfl, rfl, .inl ⟨rfl, rfl⟩⟩
    | some rs =>
      dsimp only at h
      -- Contents are built for a container only.
      by_cases hHolds : item.isContainer
      · rw [hHolds] at h
        obtain ⟨trees, hTrees, hEq⟩ : ∃ trees, (buildAll c rs).1 = .ok trees
            ∧ some (ItemTree.node item trees) = some t := by
          revert h
          cases (buildAll c rs).1 with
          | error e => exact fun h => by cases h
          | ok trees => exact fun h => ⟨trees, rfl, Except.ok.inj h⟩
        exact ⟨item, trees, rfl, (Option.some_inj.1 hEq).symm, .inr ⟨rs, rfl, hHolds, hTrees⟩⟩
      · rw [Bool.eq_false_iff.2 hHolds] at h
        cases h

/-- Records are built if the first one is, and the others are. -/
theorem buildAll_cons_eq_ok {r : Record} {rs : List Record} {ts : List ItemTree}
    (h : (buildAll c (r :: rs)).1 = .ok ts) :
    ∃ o us, (r.build c).1 = .ok o ∧ (buildAll c rs).1 = .ok us ∧ ts = o.toList ++ us := by
  rw [buildAll] at h
  split at h
  next => cases h
  next o tally hHead =>
    revert h
    -- A record that fails fails all of them, whatever came before it.
    cases hTail : (buildAll c rs).1 with
    | error e =>
      intro h
      dsimp only at h
      rw [hTail] at h
      cases h
    | ok us =>
      intro h
      dsimp only at h
      rw [hTail] at h
      exact ⟨o, us, by rw [hHead], rfl, (Except.ok.inj h).symm⟩

/-- Each tree is built from one of the records. -/
theorem exists_of_mem_buildAll {rs : List Record} {ts : List ItemTree}
    (h : (buildAll c rs).1 = .ok ts) : ∀ t ∈ ts, ∃ r ∈ rs, (r.build c).1 = .ok (some t) := by
  induction rs generalizing ts with
  | nil =>
    cases h
    exact fun t hMem => absurd hMem List.not_mem_nil
  | cons r rs ih =>
    obtain ⟨o, us, hHead, hTail, rfl⟩ := buildAll_cons_eq_ok h
    intro t hMem
    rcases List.mem_append.1 hMem with hMem | hMem
    · rw [Option.mem_toList] at hMem
      exact ⟨r, List.mem_cons_self, by rw [hHead, hMem]⟩
    · obtain ⟨r', hr', hBuilt⟩ := ih hTail t hMem
      exact ⟨r', List.mem_cons_of_mem r hr', hBuilt⟩

/-- There are no more trees than records. -/
theorem length_le_of_buildAll {rs : List Record} {ts : List ItemTree}
    (h : (buildAll c rs).1 = .ok ts) : ts.length ≤ rs.length := by
  induction rs generalizing ts with
  | nil =>
    cases h
    exact Nat.le_refl 0
  | cons r rs ih =>
    obtain ⟨o, us, _, hTail, rfl⟩ := buildAll_cons_eq_ok h
    have hRest := ih hTail
    -- A record gives one tree or none.
    have hOne := Option.length_toList_le (o := o)
    rw [List.length_append, List.length_cons]
    omega

/-! ## §2. All items of a built tree. -/

mutual

/-- **A built tree has contents in containers only.** -/
theorem hollow_of_build : ∀ (r : Record) (t : ItemTree),
    (r.build c).1 = .ok (some t) → t.Every ItemTree.Hollow
  | .mk id known us children, t, h => by
    obtain ⟨item, trees, _, rfl, ⟨_, rfl⟩ | ⟨rs, rfl, hHolds, hTrees⟩⟩ := build_eq_ok h
    · exact ⟨fun hNonempty => absurd rfl hNonempty, trivial⟩
    · exact ⟨fun _ => hHolds, hollow_of_buildAll rs trees hTrees⟩

/-- Trees that are built hold contents only where their types do. -/
theorem hollow_of_buildAll : ∀ (rs : List Record) (ts : List ItemTree),
    (buildAll c rs).1 = .ok ts → ItemTree.EveryOf ItemTree.Hollow ts
  | [], ts, h => by
    cases h
    trivial
  | r :: rs, ts, h => by
    obtain ⟨o, us, hHead, hTail, rfl⟩ := buildAll_cons_eq_ok h
    have hRest := hollow_of_buildAll rs us hTail
    cases o with
    | none => exact hRest
    | some t => exact ⟨hollow_of_build r t hHead, hRest⟩

end

mutual

/-- **Every item of a built tree is a new item of a record.** -/
theorem every_of_build {P : Item → Prop} (hP : ∀ r item, newItem? c r = some item → P item) :
    ∀ (r : Record) (t : ItemTree), (r.build c).1 = .ok (some t) → t.Every fun i _ => P i
  | .mk id known us children, t, h => by
    obtain ⟨item, trees, hNew, rfl, ⟨_, rfl⟩ | ⟨rs, rfl, _, hTrees⟩⟩ := build_eq_ok h
    · exact ⟨hP _ _ hNew, trivial⟩
    · exact ⟨hP _ _ hNew, every_of_buildAll hP rs trees hTrees⟩

/-- What is true of every new item is true throughout the trees that are built. -/
theorem every_of_buildAll {P : Item → Prop} (hP : ∀ r item, newItem? c r = some item → P item) :
    ∀ (rs : List Record) (ts : List ItemTree), (buildAll c rs).1 = .ok ts →
      ItemTree.EveryOf (fun i _ => P i) ts
  | [], ts, h => by
    cases h
    trivial
  | r :: rs, ts, h => by
    obtain ⟨o, us, hHead, hTail, rfl⟩ := buildAll_cons_eq_ok h
    have hRest := every_of_buildAll hP rs us hTail
    cases o with
    | none => exact hRest
    | some t => exact ⟨every_of_build hP r t hHead, hRest⟩

end

/-- A new item of a record is in the variant of its type. -/
theorem typed_newItem? {r : Record} {item : Item} (h : newItem? c r = some item) :
    item.Typed c := by
  obtain ⟨t, ht, rfl⟩ := newItem?_eq_some h
  refine (Item.typed_ofType 0 (Catalog.get?_of_usable? ht)).of_sameKind ?_ ?_
  · exact Item.typeId_applyAll c _ _
  · exact Item.sameKind_variant_applyAll c _ _

/-- The type of a new item of a record can be used, and gives the item its variant. -/
theorem usable_newItem? {r : Record} {item : Item} (h : newItem? c r = some item) :
    ∃ t, c.usable? item.typeId = some t ∧ item.variant.sameKind t.variant = true := by
  obtain ⟨t, hUsable, _⟩ := newItem?_eq_some h
  rw [← typeId_newItem? h] at hUsable
  exact ⟨t, hUsable, typed_newItem? h t (Catalog.get?_of_usable? hUsable)⟩

end Record

end Homestead
