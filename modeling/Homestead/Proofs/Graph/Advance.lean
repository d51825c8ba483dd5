/-
  Homestead.Proofs.Graph.Advance
  ──────────────────────────────
  **WHAT BECOMES OF EVERY ITEM.**

  A change of a graph takes every item to an item under the same number.
  Most changes leave it of its type and of its kind, and a door lets the
  same people pass after them: only another type can make it something
  else.

  Main results:
    * `Advances` — every item is still there, and related to what it was;
    * `firm_emptyOut`, `firm_fill` — other contents leave all items firm;
    * `advances_fill`, `tiles_fill` — what filling an item can change at all.
-/
import Homestead.Proofs.Graph.Items
import Homestead.Proofs.Graph.Success

namespace Homestead

/-! ## §1. Items that stay what they are. -/

/-- The items are of one type and of one kind, and let the same people pass. -/
structure Item.Firm (i i' : Item) : Prop where
  /-- The type is the same. -/
  typeId : i'.typeId = i.typeId
  /-- The kind is the same. -/
  kind : i'.variant.sameKind i.variant = true
  /-- The list of who may pass is the same. -/
  list : i'.variant.list? = i.variant.list?

open Record

namespace Item

variable {i i' i'' : Item}

theorem Firm.refl (i : Item) : i.Firm i :=
  ⟨rfl, Variant.sameKind_refl _, rfl⟩

/-- Changes that leave an item firm do so together. -/
theorem Firm.trans (h : i.Firm i') (h' : i'.Firm i'') : i.Firm i'' where
  typeId := h'.typeId.trans h.typeId
  kind := Variant.sameKind_trans h'.kind h.kind
  list := h'.list.trans h.list

/-- A firm item is a door before and after, or neither. -/
theorem Firm.isDoor_eq (h : i.Firm i') : i'.isDoor = i.isDoor :=
  Variant.isDoor_eq_of_sameKind h.kind

/-- A firm item has its variant changed at most in what is still to come to it. -/
theorem firm_setPending (i : Item) (n : UInt32) :
    i.Firm { i with variant := i.variant.setPending n } where
  typeId := rfl
  kind := Variant.sameKind_setPending i.variant n
  list := by
    show (i.variant.setPending n).list? = _
    cases i.variant <;> rfl

/-- An item is firm if its type and its variant stay. -/
theorem firm_of_variant (hType : i'.typeId = i.typeId) (hVariant : i'.variant = i.variant) :
    i.Firm i' where
  typeId := hType
  kind := by rw [hVariant]; exact Variant.sameKind_refl _
  list := by rw [hVariant]

/-- Updates are about sleepers, numbers of depots and the like: none lets anybody pass. -/
theorem list?_onVariant (v : Variant) (u : Update) : (u.onVariant v).list? = v.list? := by
  cases u <;> cases v <;> rfl

/-- One attribute of a record leaves the item firm. -/
theorem firm_apply (c : Catalog) (i : Item) (u : Update) : i.Firm (i.apply c u) where
  typeId := typeId_apply c i u
  kind := by rw [variant_apply]; exact Variant.sameKind_onVariant i.variant u
  list := by rw [variant_apply]; exact list?_onVariant i.variant u

/-- The attributes of a record leave the item firm, one after the other. -/
theorem firm_applyAll (c : Catalog) (us : List Update) (i : Item) :
    i.Firm (i.applyAll c us) := by
  induction us generalizing i with
  | nil => exact Firm.refl i
  | cons u us ih => exact (firm_apply c i u).trans (ih (i.apply c u))

end Item

namespace Graph

variable {R : Item → Item → Prop} {c : Catalog} {g g' g'' : Graph}

/-! ## §2. Graphs that advance. -/

/-- Every item is there still, and is related to what it was. -/
def Advances (R : Item → Item → Prop) (g g' : Graph) : Prop :=
  ∀ j i, g.item? j = some i → ∃ i', g'.item? j = some i' ∧ R i i'

/-- Two advances are one, if two changes of an item are one. -/
theorem Advances.trans (hR : ∀ i i' i'', R i i' → R i' i'' → R i i'') (h : g.Advances R g')
    (h' : g'.Advances R g'') : g.Advances R g'' := by
  intro j i hi
  obtain ⟨i', hi', hRelated⟩ := h j i hi
  obtain ⟨i'', hi'', hRelated'⟩ := h' j i' hi'
  exact ⟨i'', hi'', hR i i' i'' hRelated hRelated'⟩

/-- Two advances that leave the items firm do so together. -/
theorem Advances.firm_trans (h : g.Advances Item.Firm g') (h' : g'.Advances Item.Firm g'') :
    g.Advances Item.Firm g'' :=
  h.trans (R := Item.Firm) (fun _ _ _ hFirst hSecond => hFirst.trans hSecond) h'

/-- A graph advances where no item's data change. -/
theorem advances_of_item? (hR : ∀ i, R i i) (h : ∀ j i, g.item? j = some i → g'.item? j = some i) :
    g.Advances R g' :=
  fun j i hi => ⟨i, h j i hi, hR i⟩

/-- A graph advances by an update, if the item that is changed does. -/
theorem advances_update (hR : ∀ i, R i i) (id : ItemId) {f : Item → Item}
    (hf : ∀ i, g.item? id = some i → R i (f i)) : g.Advances R (g.update id f) := by
  intro j i hi
  rw [item?_update]
  split_ifs with hj
  · rw [hj] at hi ⊢
    exact ⟨f i, by rw [hi, Option.map_some], hf i hi⟩
  · exact ⟨i, hi, hR i⟩

/-! ## §3. Other contents. -/

/-- Old items are as before when new ones are planted. -/
theorem item?_planted (hg : g.Consistent) {holder : Option Holder} {ids : List ItemId}
    {ts : List ItemTree} (h : Planted g g' holder ids ts) {j : ItemId} {i : Item}
    (hi : g.item? j = some i) : g'.item? j = some i := by
  obtain ⟨n, hn, rfl⟩ := item?_eq_some.1 hi
  rw [item?, h.old j (hg.numbered j n hn), hn, Option.map_some]

/-- An addition changes no item's data. -/
theorem item?_add {target : Holder} {id : ItemId} (h : g.add target id = .ok g') (j : ItemId) :
    g'.item? j = g.item? j := by
  obtain ⟨_, _, _, _, _, rfl⟩ := insert_eq_ok h
  exact item?_relist _ _ _ _ _

/-- Taking an item from its holder changes no item's data. -/
theorem item?_detach {id : ItemId} {former : Option Holder}
    (h : g.detach id = .ok (former, g')) (j : ItemId) : g'.item? j = g.item? j := by
  rcases (detach_eq_ok h).2 with ⟨_, rfl⟩ | ⟨holder, hRemove⟩
  · exact item?_setHolder id j none
  · obtain ⟨_, rfl⟩ := remove_eq_ok hRemove
    exact item?_relist _ _ _ _ _

/-- Building a record leaves the items that were there: new ones have new numbers. -/
theorem item?_perform_build (hg : g.Consistent) (r : Record) {j : ItemId} {i : Item}
    (hi : g.item? j = some i) : (g.perform c (.build r)).item? j = some i := by
  unfold perform
  dsimp only
  split
  next t _ hBuilt =>
    have hPlanted := planted_create hg (hollow_of_build r t (c := c) (by rw [hBuilt]))
    exact item?_planted hg hPlanted hi
  next => exact hi

/-- Building a record writes no tile. -/
theorem tiles_perform_build (hg : g.Consistent) (r : Record) :
    (g.perform c (.build r)).tiles = g.tiles := by
  unfold perform
  dsimp only
  split
  next t _ hBuilt =>
    exact (planted_create hg (hollow_of_build r t (c := c) (by rw [hBuilt]))).tiles
  next => rfl

/-- An addition changes no item's data, whether it goes through or not. -/
theorem item?_perform_add (target : Holder) (id j : ItemId) :
    (g.perform c (.add target id)).item? j = g.item? j := by
  rw [perform_add]
  cases hAdd : g.add target id with
  | error e => rfl
  | ok g' => exact item?_add hAdd j

/-- Taking an item out of its holder leaves the others where they lie. -/
theorem mem_contents_detach {id : ItemId} {former : Option Holder}
    (h : g.detach id = .ok (former, g')) {d : ItemId} {holder : Holder} (hOther : d ≠ id)
    (hMem : d ∈ g.contents holder) : d ∈ g'.contents holder := by
  rcases (detach_eq_ok h).2 with ⟨_, rfl⟩ | ⟨own, hRemove⟩
  · rwa [contents_setHolder]
  · obtain ⟨hOwn, rfl⟩ := remove_eq_ok hRemove
    rw [contents_relist (g.isLive_of_mem_contents hOwn)]
    split_ifs with hSame
    · rw [hSame] at hMem
      exact (List.mem_erase_of_ne hOther).2 hMem
    · exact hMem

/-- What was held is held by the same holder after an addition. -/
theorem mem_contents_add {id : ItemId} {target : Holder} (h : g.add target id = .ok g')
    {d : ItemId} {holder : Holder} (hMem : d ∈ g.contents holder) : d ∈ g'.contents holder := by
  obtain ⟨_, _, _, hLive, _, rfl⟩ := insert_eq_ok h
  rw [contents_relist hLive]
  split_ifs with hSame
  · rw [hSame] at hMem
    exact mem_insertAt.2 (.inr hMem)
  · exact hMem

/-- Tiles keep their houses when items are added to them. -/
theorem house_add {target : Holder} {id : ItemId} (h : g.add target id = .ok g') (p : Position) :
    (g'.tile? p).map (·.house) = (g.tile? p).map (·.house) := by
  obtain ⟨_, _, _, _, _, rfl⟩ := insert_eq_ok h
  exact house_relist _ _ _ _ p

/-- What was added is in the list. -/
theorem mem_contents_of_add {id : ItemId} {target : Holder} (h : g.add target id = .ok g') :
    id ∈ g'.contents target := by
  obtain ⟨_, _, _, hLive, _, rfl⟩ := insert_eq_ok h
  rw [contents_relist hLive, if_pos rfl]
  exact mem_insertAt.2 (.inl rfl)

/-- Emptying a container leaves all items firm: only lists and links are written. -/
theorem firm_emptyOut (hg : g.Consistent) {id : ItemId} (h : World.emptyOut g id = (.ok (), g')) :
    g.Advances Item.Firm g' := by
  obtain ⟨g₁, hEmpty, hEmptied⟩ := hg.emptyOut id
  obtain rfl := (Prod.mk.inj (h.symm.trans hEmpty)).2
  refine advances_of_item? Item.Firm.refl ?_
  intro j i hi
  rw [hEmptied.items, hi]

/-- A relation of items that does not see how much is still to come to them. -/
structure PendingBlind (R : Item → Item → Prop) : Prop where
  /-- An item is related to itself. -/
  refl : ∀ i, R i i
  /-- Steps may be put together. -/
  trans : ∀ i i' i'', R i i' → R i' i'' → R i i''
  /-- What is still to come does not matter. -/
  pending : ∀ i n, R i { i with variant := i.variant.setPending n }

/-- Being firm is blind to the count of missing entries. -/
theorem firm_pendingBlind : PendingBlind Item.Firm :=
  ⟨Item.Firm.refl, fun _ _ _ h h' => h.trans h', Item.firm_setPending⟩

/-- Counting one entry fewer is an advance, if the relation is blind to the count. -/
theorem advances_countDown (hR : PendingBlind R) (g : Graph) (id : ItemId) :
    g.Advances R (countDown g id) := by
  refine advances_update hR.refl id ?_
  intro i _
  split
  next n _ => exact hR.pending i _
  next => exact hR.refl i

/-- Filling a container, record after record, is an advance. -/
theorem advances_fillAll (hR : PendingBlind R) (id : ItemId) (rs : List Record) :
    ∀ {g : Graph} {tally : Tally}, g.Consistent →
      g.Advances R (fillAll c id rs g tally).2.2 := by
  induction rs with
  | nil => exact fun _ => advances_of_item? hR.refl fun _ _ hi => hi
  | cons r rs ih =>
    intro g tally hg
    rw [fillAll_cons]
    split
    next => exact advances_of_item? hR.refl fun _ _ hi => hi
    next => exact (advances_countDown hR g id).trans hR.trans (ih (hg.countDown id))
    next tree more hBuilt =>
      -- The new item is planted and then put at the end; both leave the old ones as they are.
      have hHollow := hollow_of_build r tree (c := c) (by rw [hBuilt])
      have hPlanted := planted_create hg hHollow
      have hCreated : g.Advances R (g.create tree).2 :=
        advances_of_item? hR.refl fun _ _ hi => item?_planted hg hPlanted hi
      split
      next => exact hCreated
      next g' hAdd =>
        have hAdded : (g.create tree).2.Advances R g' :=
          advances_of_item? hR.refl fun j i hi => by rw [item?_add hAdd, hi]
        have hHere := (hCreated.trans hR.trans hAdded).trans hR.trans (advances_countDown hR g' id)
        exact hHere.trans hR.trans (ih ((hPlanted.consistent.add hAdd).countDown id))

/-- **Filling an item changes of the old ones at most how much is still to come**, even when it
fails. -/
theorem advances_fill (hR : PendingBlind R) (hg : g.Consistent) (id : ItemId) (r : Record) :
    g.Advances R (r.fill c g id).2.2 := by
  unfold fill
  split
  next => exact advances_of_item? hR.refl fun _ _ hi => hi
  next children _ =>
    split
    · exact advances_of_item? hR.refl fun _ _ hi => hi
    · refine Advances.trans hR.trans ?_ (advances_fillAll hR id children (hg.setPending id fun _ => _))
      exact advances_update hR.refl id fun i _ => hR.pending i _

/-- Filling a container leaves the items that were there firm. -/
theorem firm_fill (hg : g.Consistent) (id : ItemId) (r : Record) :
    g.Advances Item.Firm (r.fill c g id).2.2 :=
  advances_fill firm_pendingBlind hg id r

/-- Another list for an item leaves the tiles as they are. -/
theorem tiles_relist_item (container : ItemId) (ids : List ItemId) (id : ItemId)
    (link : Option Holder) : (g.relist (.item container) ids id link).tiles = g.tiles := by
  rw [relist, tiles_setHolder]
  exact tiles_updateNode g container _

/-- An addition to a container writes no tile. -/
theorem tiles_add_item {container id : ItemId} (h : g.add (.item container) id = .ok g') :
    g'.tiles = g.tiles := by
  obtain ⟨_, _, _, _, _, rfl⟩ := insert_eq_ok h
  exact tiles_relist_item container _ id _

/-- Counting one entry fewer writes no tile. -/
theorem tiles_countDown (g : Graph) (id : ItemId) : (countDown g id).tiles = g.tiles :=
  tiles_update g id _

/-- Filling a container writes no tile. -/
theorem tiles_fillAll (id : ItemId) (rs : List Record) :
    ∀ {g : Graph} {tally : Tally}, g.Consistent → (fillAll c id rs g tally).2.2.tiles = g.tiles := by
  induction rs with
  | nil => exact fun _ => rfl
  | cons r rs ih =>
    intro g tally hg
    rw [fillAll_cons]
    split
    next => rfl
    next => rw [ih (hg.countDown id), tiles_countDown]
    next tree more hBuilt =>
      have hPlanted := planted_create hg (hollow_of_build r tree (c := c) (by rw [hBuilt]))
      split
      next => exact hPlanted.tiles
      -- The new item is put into the container, which is no tile.
      next g' hAdd =>
        rw [ih ((hPlanted.consistent.add hAdd).countDown id), tiles_countDown, tiles_add_item hAdd,
          hPlanted.tiles]

/-- **Filling an item leaves the tiles as they are**, even when it fails. -/
theorem tiles_fill (hg : g.Consistent) (id : ItemId) (r : Record) :
    (r.fill c g id).2.2.tiles = g.tiles := by
  unfold fill
  split
  next => rfl
  next children _ =>
    split
    · rfl
    · rw [tiles_fillAll id children (hg.setPending id fun _ => _), tiles_update]

end Graph

end Homestead
