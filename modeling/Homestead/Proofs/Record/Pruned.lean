/-
  Homestead.Proofs.Record.Pruned
  ──────────────────────────────
  **WHAT IS KEPT OF A RECORD.**

  A catalog cuts a record back: whatever is marked as unknown, or is of a
  type that no item can be made of, goes with all that it holds.  Building
  makes an item for each record that is kept, in the same places, and lets
  go as many as have been cut.  It fails for one reason only, a record that
  is kept, has contents, and is of a type that holds none.

  Main results:
    * `Pruning.append`, `Pruning.node` — what holds of the parts holds of
      the whole;
    * `pruning_build`, `pruning_buildAll` — every record and every catalog.
-/
import Homestead.Proofs.Record.Built

namespace Homestead

namespace Record

variable {c : Catalog}

/-! ## §1. Cutting back. -/

/-- Whether an item can be made of a record. -/
def Kept (c : Catalog) (known : Bool) (typeId : TypeId) : Bool :=
  known && (Item.create? c typeId 0).isSome

mutual

/-- What is kept of a record, which is nothing if no item can be made of it. -/
def pruned? (c : Catalog) : Record → Option Record
  | mk typeId known updates children =>
    if Kept c known typeId then
      match children with
      | none => some (mk typeId known updates none)
      | some children => some (mk typeId known updates (some (prunedAll c children)))
    else none

/-- What is kept of records, in order. -/
def prunedAll (c : Catalog) : List Record → List Record
  | [] => []
  | r :: rs => (pruned? c r).toList ++ prunedAll c rs

end

mutual

/-- A record and all that it holds, however deep. -/
def parts : Record → List Record
  | mk typeId known updates none => [mk typeId known updates none]
  | mk typeId known updates (some children) =>
    mk typeId known updates (some children) :: partsAll children

/-- Records and all that they hold, however deep. -/
def partsAll : List Record → List Record
  | [] => []
  | r :: rs => r.parts ++ partsAll rs

end

/-- A record with contents, perhaps none, whose type holds nothing. -/
def Misfit (c : Catalog) (r : Record) : Prop :=
  r.children.isSome ∧ (c.get? r.typeId).any (·.isContainer) = false

mutual

/-- The tree has a new item with the updates of the record, and mirrors what the record holds. -/
def Mirrors (c : Catalog) : ItemTree → Record → Prop
  | .node item trees, mk typeId _ updates none =>
    (∃ t, c.usable? typeId = some t ∧ item = (Item.ofType t 0).applyAll c updates) ∧ trees = []
  | .node item trees, mk typeId _ updates (some children) =>
    (∃ t, c.usable? typeId = some t ∧ item = (Item.ofType t 0).applyAll c updates)
      ∧ MirrorsAll c trees children

/-- The trees mirror the records, one each, in order. -/
def MirrorsAll (c : Catalog) : List ItemTree → List Record → Prop
  | [], [] => True
  | t :: ts, r :: rs => Mirrors c t r ∧ MirrorsAll c ts rs
  | _, _ => False

end

/-- A record is pruned by what its type says, and its contents one by one. -/
theorem pruned?_mk (typeId : TypeId) (known : Bool) (us : List Update)
    (children : Option (List Record)) :
    pruned? c (mk typeId known us children) = if Kept c known typeId then
      some (mk typeId known us (children.map (prunedAll c))) else none := by
  cases children <;> rw [pruned?] <;> rfl

/-- The parts of two lists are those of the one and of the other. -/
theorem partsAll_append (rs rs' : List Record) :
    partsAll (rs ++ rs') = partsAll rs ++ partsAll rs' := by
  induction rs with
  | nil => rfl
  | cons r rs ih => rw [List.cons_append, partsAll, partsAll, ih, List.append_assoc]

/-- A part of what may be there is a part of what is. -/
theorem exists_of_mem_partsAll_toList {o : Option Record} {part : Record}
    (h : part ∈ partsAll o.toList) : ∃ r, o = some r ∧ part ∈ r.parts := by
  cases o with
  | none => exact absurd h List.not_mem_nil
  | some r =>
    rw [Option.toList_some, partsAll, partsAll, List.append_nil] at h
    exact ⟨r, rfl, h⟩

/-- Trees mirror records one list behind the other. -/
theorem mirrorsAll_append {ts ts' : List ItemTree} {rs rs' : List Record}
    (h : MirrorsAll c ts rs) (h' : MirrorsAll c ts' rs') :
    MirrorsAll c (ts ++ ts') (rs ++ rs') := by
  induction ts generalizing rs with
  | nil =>
    cases rs with
    | nil => exact h'
    | cons r rs => exact h.elim
  | cons t ts ih =>
    cases rs with
    | nil => exact h.elim
    | cons r rs => exact ⟨h.1, ih h.2⟩

/-! ## §2. New items. -/

/-- A record that becomes an item is kept. -/
theorem kept_of_newItem? {typeId : TypeId} {known : Bool} {us : List Update} {item : Item}
    (h : newItem? c (mk typeId known us none) = some item) : Kept c known typeId = true := by
  unfold newItem? at h
  split at h
  next hKnown =>
    obtain ⟨new, hNew, _⟩ := Option.map_eq_some_iff.1 h
    exact Bool.and_eq_true_iff.2 ⟨hKnown, Option.isSome_of_eq_some hNew⟩
  next => cases h

/-- A record that becomes none is not. -/
theorem not_kept_of_newItem? {typeId : TypeId} {known : Bool} {us : List Update}
    (h : newItem? c (mk typeId known us none) = none) : Kept c known typeId = false := by
  unfold newItem? at h
  split at h
  next =>
    have hNone : Item.create? c typeId 0 = none := Option.map_eq_none_iff.1 h
    rw [Kept, hNone]
    exact Bool.and_false known
  next hKnown =>
    rw [Kept, show known = false from Bool.eq_false_iff.2 hKnown]
    rfl

/-- A new item holds items if its type does. -/
theorem isContainer_newItem? {r : Record} {item : Item} (h : newItem? c r = some item) :
    item.isContainer = (c.get? r.typeId).any (·.isContainer) := by
  obtain ⟨t, ht, rfl⟩ := newItem?_eq_some h
  show ((Item.ofType t 0).applyAll c r.updates).variant.isContainer = _
  rw [Variant.isContainer_eq_of_sameKind (Item.sameKind_variant_applyAll c _ _),
    Item.variant_ofType, ItemType.isContainer_variant, Catalog.get?_of_usable? ht]
  rfl

end Record

/-- Nothing is still to come to the item. -/
def Item.Filled (i : Item) : Prop :=
  ∀ n ∈ i.variant.pending, n = 0

namespace Record

variable {c : Catalog}

/-- A new item from a record waits for no contents. -/
theorem filled_newItem? {r : Record} {item : Item} (h : newItem? c r = some item) :
    item.Filled := by
  obtain ⟨t, _, rfl⟩ := newItem?_eq_some h
  -- No update writes how many items are to come.
  have hSees : Item.Sees c ((Item.ofType t 0).meaning c) (·.variant.pending) fun _ => none := by
    rintro i u -
    show (i.apply c u).variant.pending = i.variant.pending
    rw [Item.variant_apply]
    cases u <;> cases i.variant <;> rfl
  intro n hn
  rw [hSees.of_spared r.updates fun _ _ => rfl, Item.variant_ofType, ItemType.variant] at hn
  revert hn
  cases t.group <;> simp [Variant.ofGroup, Variant.pending, Variant.emptyContainer,
    Variant.emptyDepot, eq_comm]

/-! ## §3. What building comes to. -/

/-- What making items of records comes to, where `kept` is what the catalog keeps of them and `all`
is how many items were stored. -/
structure Pruning (c : Catalog) (kept : List Record) (all : Nat)
    (result : Except DecodeError (List ItemTree)) (tally : Tally) : Prop where
  /-- A failure names a misfit among what is kept. -/
  mismatch : ∀ e, result = .error e →
    ∃ part ∈ partsAll kept, part.Misfit c ∧ e = .mismatch part.typeId .holdsNothing
  /-- No misfit is passed over. -/
  strict : ∀ part ∈ partsAll kept, part.Misfit c → ∃ e, result = .error e
  /-- Otherwise what is kept is made, in the same places. -/
  mirrors : ∀ ts, result = .ok ts → MirrorsAll c ts kept
  /-- As many are counted as made as there are items. -/
  created : ∀ ts, result = .ok ts → tally.created = ItemTree.sizes ts
  /-- Every item is counted once. -/
  counted : ∀ ts, result = .ok ts → tally.created + tally.discarded = all
  /-- Nothing is still to come to what is made. -/
  filled : ∀ ts, result = .ok ts → ItemTree.EveryOf (fun i _ => i.Filled) ts

/-- Items that are created are added up. -/
theorem created_add (a b : Tally) : (a + b).created = a.created + b.created := rfl

/-- Records that are discarded are added up. -/
theorem discarded_add (a b : Tally) : (a + b).discarded = a.discarded + b.discarded := rfl

/-- The sizes of trees are added up. -/
theorem sizes_append (ts us : List ItemTree) :
    ItemTree.sizes (ts ++ us) = ItemTree.sizes ts + ItemTree.sizes us := by
  induction ts with
  | nil => exact (Nat.zero_add _).symm
  | cons t ts ih => rw [List.cons_append, ItemTree.sizes, ItemTree.sizes, ih, Nat.add_assoc]

/-- Nothing is made of a record that is cut. -/
theorem Pruning.cut (all : Nat) : Pruning c [] all (.ok []) (.letGo all) where
  -- A step that succeeds without a tree says nothing about errors or trees.
  mismatch _ h := by cases h
  strict _ h := absurd h List.not_mem_nil
  mirrors ts h := by
    cases h
    trivial
  created ts h := by
    cases h
    rfl
  counted _ _ := Nat.zero_add all
  filled ts h := by
    cases h
    trivial

/-- Records one after another. -/
theorem Pruning.append {kept kept' : List Record} {all all' : Nat}
    {result result' : Except DecodeError (List ItemTree)} {tally tally' : Tally}
    (h : Pruning c kept all result tally) (h' : Pruning c kept' all' result' tally')
    {us : List ItemTree} (hResult : result = .ok us) :
    Pruning c (kept ++ kept') (all + all') (result'.map (us ++ ·)) (tally + tally') := by
  -- All together succeed only if the later ones do.
  have hSplit : ∀ ts, result'.map (us ++ ·) = .ok ts → ∃ ts', result' = .ok ts' ∧ ts = us ++ ts' := by
    intro ts hts
    cases result' with
    | error e => cases hts
    | ok ts' => exact ⟨ts', rfl, (Except.ok.inj hts).symm⟩
  constructor
  case mismatch =>
    intro e he
    cases result' with
    | ok ts' => cases he
    | error e' =>
      cases he
      obtain ⟨part, hPart, hMisfit⟩ := h'.mismatch e rfl
      rw [partsAll_append]
      exact ⟨part, List.mem_append_right _ hPart, hMisfit⟩
  -- A misfit among the first would have failed them.
  case strict =>
    intro part hPart hMisfit
    rw [partsAll_append, List.mem_append] at hPart
    rcases hPart with hPart | hPart
    · obtain ⟨e, he⟩ := h.strict part hPart hMisfit
      rw [hResult] at he
      cases he
    · obtain ⟨e, rfl⟩ := h'.strict part hPart hMisfit
      exact ⟨e, rfl⟩
  case mirrors =>
    intro ts hts
    obtain ⟨ts', hRest, rfl⟩ := hSplit ts hts
    exact mirrorsAll_append (h.mirrors us hResult) (h'.mirrors ts' hRest)
  case created =>
    intro ts hts
    obtain ⟨ts', hRest, rfl⟩ := hSplit ts hts
    rw [created_add, sizes_append, h.created us hResult, h'.created ts' hRest]
  case counted =>
    intro ts hts
    obtain ⟨ts', hRest, rfl⟩ := hSplit ts hts
    have hFirst := h.counted us hResult
    have hSecond := h'.counted ts' hRest
    rw [created_add, discarded_add]
    omega
  case filled =>
    intro ts hts
    obtain ⟨ts', hRest, rfl⟩ := hSplit ts hts
    rw [ItemTree.everyOf_iff]
    intro t ht
    rcases List.mem_append.1 ht with ht | ht
    · exact ItemTree.everyOf_iff.1 (h.filled us hResult) t ht
    · exact ItemTree.everyOf_iff.1 (h'.filled ts' hRest) t ht

/-- Records behind one that fails. -/
theorem Pruning.stop {kept : List Record} {all : Nat} {e : DecodeError} {tally : Tally}
    (h : Pruning c kept all (.error e) tally) (kept' : List Record) (all' : Nat)
    (tally' : Tally) : Pruning c (kept ++ kept') all' (.error e) tally' where
  mismatch e' he := by
    obtain ⟨part, hPart, hMisfit⟩ := h.mismatch e' he
    rw [partsAll_append]
    exact ⟨part, List.mem_append_left _ hPart, hMisfit⟩
  strict _ _ _ := ⟨e, rfl⟩
  mirrors _ hts := by cases hts
  created _ hts := by cases hts
  counted _ hts := by cases hts
  filled _ hts := by cases hts

section Node

variable {typeId : TypeId} {known : Bool} {us : List Update} {item : Item}

/-- A record without a list of contents. -/
theorem Pruning.leaf (h : newItem? c (Record.mk typeId known us none) = some item) :
    Pruning c [Record.mk typeId known us none] 1 (.ok [.node item []]) (.made 1) where
  mismatch _ he := by cases he
  -- A record without contents has no part but itself, and nothing that could be misplaced.
  strict part hPart hMisfit := by
    obtain rfl : part = Record.mk typeId known us none := by simpa [partsAll, parts] using hPart
    cases hMisfit.1
  mirrors ts hts := by
    cases hts
    exact ⟨⟨newItem?_eq_some h, rfl⟩, trivial⟩
  created ts hts := by
    cases hts
    rfl
  counted _ _ := rfl
  filled ts hts := by
    cases hts
    exact ⟨⟨filled_newItem? h, trivial⟩, trivial⟩

/-- A record with contents whose type holds nothing. -/
theorem Pruning.misfit (h : newItem? c (Record.mk typeId known us none) = some item)
    (hHolds : item.isContainer = false) (kept : List Record) (all : Nat) (tally : Tally) :
    Pruning c [Record.mk typeId known us (some kept)] all (.error (.mismatch typeId .holdsNothing))
      tally where
  mismatch e he := by
    cases he
    refine ⟨Record.mk typeId known us (some kept), List.mem_cons_self, ⟨rfl, ?_⟩, rfl⟩
    exact (isContainer_newItem? h).symm.trans hHolds
  strict _ _ _ := ⟨_, rfl⟩
  mirrors _ hts := by cases hts
  created _ hts := by cases hts
  counted _ hts := by cases hts
  filled _ hts := by cases hts

/-- A record with contents whose type holds items. -/
theorem Pruning.node (h : newItem? c (Record.mk typeId known us none) = some item)
    (hHolds : item.isContainer = true) {kept : List Record} {all : Nat}
    {result : Except DecodeError (List ItemTree)} {tally : Tally}
    (hInner : Pruning c kept all result tally) :
    Pruning c [Record.mk typeId known us (some kept)] (1 + all)
      (result.map fun ts => [.node item ts]) (.made 1 + tally) := by
  -- The record succeeds only if its contents do.
  have hSplit : ∀ ts, result.map (fun ts => [ItemTree.node item ts]) = .ok ts →
      ∃ inner, result = .ok inner ∧ ts = [.node item inner] := by
    intro ts hts
    cases result with
    | error e => cases hts
    | ok inner => exact ⟨inner, rfl, (Except.ok.inj hts).symm⟩
  have hParts : partsAll [Record.mk typeId known us (some kept)]
      = Record.mk typeId known us (some kept) :: partsAll kept := by
    rw [partsAll, partsAll, List.append_nil, parts]
  constructor
  case mismatch =>
    intro e he
    cases result with
    | ok inner => cases he
    | error e' =>
      cases he
      obtain ⟨part, hPart, hMisfit⟩ := hInner.mismatch e rfl
      exact ⟨part, hParts ▸ List.mem_cons_of_mem _ hPart, hMisfit⟩
  -- The record itself is no misfit, since its type holds items.
  case strict =>
    intro part hPart hMisfit
    rw [hParts, List.mem_cons] at hPart
    rcases hPart with rfl | hPart
    · have hHoldsNot : item.isContainer = false := (isContainer_newItem? h).trans hMisfit.2
      rw [hHolds] at hHoldsNot
      cases hHoldsNot
    · obtain ⟨e, rfl⟩ := hInner.strict part hPart hMisfit
      exact ⟨e, rfl⟩
  case mirrors =>
    intro ts hts
    obtain ⟨inner, hResult, rfl⟩ := hSplit ts hts
    exact ⟨⟨newItem?_eq_some h, hInner.mirrors inner hResult⟩, trivial⟩
  case created =>
    intro ts hts
    obtain ⟨inner, hResult, rfl⟩ := hSplit ts hts
    show 1 + tally.created = 1 + ItemTree.sizes inner + 0
    rw [hInner.created inner hResult, Nat.add_zero]
  case counted =>
    intro ts hts
    obtain ⟨inner, hResult, rfl⟩ := hSplit ts hts
    show 1 + tally.created + (0 + tally.discarded) = 1 + all
    rw [Nat.zero_add, Nat.add_assoc, hInner.counted inner hResult]
  case filled =>
    intro ts hts
    obtain ⟨inner, hResult, rfl⟩ := hSplit ts hts
    exact ⟨⟨filled_newItem? h, hInner.filled inner hResult⟩, trivial⟩

end Node

variable (c)

mutual

/-- **Building a record makes what the catalog keeps of it**, and fails at misfits only. -/
theorem pruning_build : ∀ r : Record, Pruning c (pruned? c r).toList r.total
    ((r.build c).1.map Option.toList) (r.build c).2
  | mk typeId known us children => by
    rw [build, pruned?_mk]
    -- A record is cut, a leaf, a node or a misfit.
    cases hNew : newItem? c (mk typeId known us none) with
    | none =>
      rw [not_kept_of_newItem? hNew]
      exact Pruning.cut _
    | some item =>
      rw [kept_of_newItem? hNew, if_pos rfl]
      cases children with
      | none => exact Pruning.leaf hNew
      | some rs =>
        dsimp only
        by_cases hHolds : item.isContainer
        · have hNode := Pruning.node hNew hHolds (pruning_buildAll rs)
          rw [hHolds]
          revert hNode
          cases (buildAll c rs).1 <;> exact id
        · rw [Bool.eq_false_iff.2 hHolds]
          exact Pruning.misfit hNew (Bool.eq_false_iff.2 hHolds) _ _ _

/-- **Building records one after another** makes what is kept of each, in order. -/
theorem pruning_buildAll : ∀ rs : List Record,
    Pruning c (prunedAll c rs) (totals rs) (buildAll c rs).1 (buildAll c rs).2
  | [] => Pruning.cut 0
  | r :: rs => by
    have hHead := pruning_build r
    have hTail := pruning_buildAll rs
    rw [buildAll, prunedAll, totals]
    revert hHead
    obtain ⟨result, tally⟩ := r.build c
    intro hHead
    -- The first error ends it all, and what follows is not built.
    cases result with
    | error e => exact hHead.stop _ _ _
    | ok o => exact hHead.append hTail rfl

end

end Record

end Homestead
