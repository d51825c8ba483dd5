/-
  Homestead.Proofs.Graph.Items
  ────────────────────────────
  **WHAT HOLDS OF ALL ITEMS OF A GRAPH.**

  Most operations move items and change none.  So what holds of all items
  stays true as long as it holds of new items and survives the few changes
  there are.  The one that matters most is that every item is in the
  variant that the catalog gives its type.

  Main results:
    * `AllItems.planted`, `AllItems.update` — new items and changed ones;
    * `allTyped_run` — every item is in the variant of its type, whatever is
      done.
-/
import Homestead.Proofs.Graph.Run

namespace Homestead

/-! ## §1. One item. -/

/-- The house of a door or bed. -/
def Variant.house? : Variant → Option UInt32
  | door house _ | bed house _ _ => house
  | _ => none

/-- The count of missing entries is no part of the kind. -/
theorem Variant.sameKind_setPending (v : Variant) (n : UInt32) :
    (v.setPending n).sameKind v = true := by
  cases v <;> rfl

/-- The house of a fixture is no part of the kind. -/
theorem Variant.sameKind_setHouse (v : Variant) (house : Option UInt32) :
    (v.setHouse house).sameKind v = true := by
  cases v <;> rfl

/-- A copy is of the kind of what is copied. -/
theorem Variant.sameKind_copy (v : Variant) : v.copy.sameKind v = true := by
  cases v <;> rfl

namespace Item

variable {c : Catalog}

/-- A new item has the variant that its type asks for. -/
theorem typed_create? {id : TypeId} {n : UInt16} {i : Item} (h : create? c id n = some i) :
    i.Typed c := by
  obtain ⟨t, ht, rfl⟩ := Option.map_eq_some_iff.1 h
  exact typed_ofType n (Catalog.get?_of_usable? ht)

/-- An item that gets another type gets its variant too. -/
theorem typed_become (i : Item) (newType : TypeId) : (i.become c newType).Typed c := by
  intro t ht
  rw [typeId_become] at ht
  unfold become
  rw [ht]
  dsimp only
  split_ifs with hSame
  · exact hSame
  · exact Variant.sameKind_refl _

/-- A copy of an item is of the right kind for its type. -/
theorem Typed.copy {i : Item} (h : i.Typed c) : i.copy.Typed c :=
  h.of_sameKind rfl (Variant.sameKind_copy i.variant)

/-- An item stays of the right kind when its missing entries are counted. -/
theorem Typed.setPending {i : Item} (h : i.Typed c) (n : UInt32) :
    ({ i with variant := i.variant.setPending n } : Item).Typed c :=
  h.of_sameKind rfl (Variant.sameKind_setPending i.variant n)

end Item

mutual

/-- The items of a copied tree are all of the right kind. -/
theorem typed_copy {c : Catalog} : ∀ t : ItemTree, (t.Every fun i _ => i.Typed c) →
    t.copy.Every fun i _ => i.Typed c
  | .node _ contents, h => by
    rw [ItemTree.copy]
    exact ⟨h.1.copy, typed_copies contents h.2⟩

/-- The items of copied trees are all of the right kind. -/
theorem typed_copies {c : Catalog} : ∀ ts : List ItemTree,
    ItemTree.EveryOf (fun i _ => i.Typed c) ts →
    ItemTree.EveryOf (fun i _ => i.Typed c) (ItemTree.copies ts)
  | [], _ => trivial
  | t :: ts, h => ⟨typed_copy t h.1, typed_copies ts h.2⟩

end

namespace Graph

variable {g g' : Graph} {P : Item → Prop}

/-! ## §2. Items after operations. -/

/-- An update changes the data of one item. -/
theorem item?_update (id j : ItemId) (f : Item → Item) :
    (g.update id f).item? j = if j = id then (g.item? j).map f else g.item? j := by
  rw [item?, node?_update, item?]
  split_ifs
  · rw [Option.map_map, Option.map_map]
    rfl
  · rfl

/-- A link is no part of an item's data. -/
theorem item?_setHolder (id j : ItemId) (link : Option Holder) :
    (g.setHolder id link).item? j = g.item? j := by
  rw [item?, node?_setHolder, item?]
  split_ifs
  · rw [Option.map_map]
    rfl
  · rfl

/-- Making a tile changes no item. -/
theorem item?_ensureTile (p : Position) (id : ItemId) : (g.ensureTile p).item? id = g.item? id := by
  unfold ensureTile
  split <;> rfl

/-- Writing a list anew changes no item's data. -/
theorem item?_relist (holder : Holder) (ids : List ItemId) (id j : ItemId)
    (link : Option Holder) : (g.relist holder ids id link).item? j = g.item? j := by
  rw [item?, node?_relist, Option.map_map, item?]
  rfl

/-- A spill writes the data of one item, whatever it releases. -/
theorem item?_spill (id j : ItemId) (item : Item) :
    (g.spill id item).item? j
      = if j = id then (g.item? j).map fun _ => item else g.item? j := by
  rw [item?, node?_spill, item?]
  cases g.node? j with
  | none => simp
  | some n => by_cases hj : j = id <;> simp [hj]

/-- A change of type writes the data of one item, whether it spills or not. -/
theorem item?_retype (c : Catalog) (id j : ItemId) (newType : TypeId) :
    (g.retype c id newType).item? j
      = if j = id then (g.item? j).map (·.become c newType) else g.item? j := by
  cases hn : g.node? id with
  | none =>
    have hNone : g.item? id = none := by rw [item?, hn, Option.map_none]
    unfold Graph.retype
    rw [hn]
    split_ifs with hj
    · rw [hj, hNone, Option.map_none]
    · rfl
  | some n =>
    have hItem : g.item? id = some n.item := by rw [item?, hn, Option.map_some]
    -- The new item is made of the old one that stands under this number.
    have hBecome : (if j = id then (g.item? j).map (·.become c newType) else g.item? j)
        = if j = id then (g.item? j).map (fun _ => n.item.become c newType) else g.item? j := by
      split_ifs with hj
      · rw [hj, hItem, Option.map_some, Option.map_some]
      · rfl
    rw [retype_eq c newType hn, hBecome]
    by_cases hHolds : (n.item.become c newType).isContainer
    · rw [if_pos hHolds, item?_update]
    · rw [if_neg hHolds, item?_spill]

/-- Nothing comes to lie in an item that gets another type. -/
theorem lies_of_retype {c : Catalog} {id inner outer : ItemId} {newType : TypeId}
    (h : (g.retype c id newType).Lies inner outer) : g.Lies inner outer := by
  -- It keeps what it holds, or lets go of all of it.
  obtain hSame | ⟨n, -, ⟨-, hUpdated⟩ | hSpilt⟩ := g.retype_cases c id newType
  · rwa [hSame] at h
  · rw [hUpdated] at h
    rwa [Lies, contents_update] at h
  · rw [hSpilt, Lies, contents_spill] at h
    split_ifs at h
    · cases h
    · exact h

/-- Nothing comes to lie in anything when an item is detached. -/
theorem lies_of_detach {id inner outer : ItemId} {former : Option Holder}
    (hDetach : g.detach id = .ok (former, g')) (h : g'.Lies inner outer) : g.Lies inner outer := by
  rcases (detach_eq_ok hDetach).2 with ⟨_, rfl⟩ | ⟨holder, hRemove⟩
  · rwa [Lies, contents_setHolder] at h
  · obtain ⟨hMem, rfl⟩ := remove_eq_ok hRemove
    rw [Lies, contents_relist (g.isLive_of_mem_contents hMem)] at h
    split_ifs at h with hHolder
    · rw [Lies, hHolder]
      exact List.mem_of_mem_erase h
    · exact h

/-- The data of an item are those of its node. -/
theorem item?_eq_some {id : ItemId} {i : Item} :
    g.item? id = some i ↔ ∃ n, g.node? id = some n ∧ n.item = i :=
  Option.map_eq_some_iff

/-- The head of the tree that an item shows is the item itself. -/
theorem Shows.item?_eq {id : ItemId} {t : ItemTree} (h : g.Shows id t) :
    g.item? id = some t.item := by
  cases t
  obtain ⟨n, hn, hItem, _⟩ := h
  exact item?_eq_some.2 ⟨n, hn, hItem⟩

/-! ## §3. All items. -/

/-- Every item of a graph has a property. -/
def AllItems (P : Item → Prop) (g : Graph) : Prop :=
  ∀ id i, g.item? id = some i → P i

/-- What is true of all items stays true where no item's data change. -/
theorem AllItems.of_item? (h : g.AllItems P) (hSame : ∀ id, g'.item? id = g.item? id) :
    g'.AllItems P :=
  fun id i hi => h id i (hSame id ▸ hi)

/-- An update keeps what is true of all items, if it keeps it for the one it changes. -/
theorem AllItems.update (h : g.AllItems P) (id : ItemId) (f : Item → Item)
    (hf : ∀ i, g.item? id = some i → P i → P (f i)) : (g.update id f).AllItems P := by
  intro j i hi
  rw [item?_update] at hi
  split_ifs at hi with hj
  · obtain ⟨old, hOld, rfl⟩ := Option.map_eq_some_iff.1 hi
    rw [hj] at hOld
    exact hf old hOld (h id old hOld)
  · exact h j i hi

/-- A list that is written anew keeps what is true of all items. -/
theorem AllItems.relist (h : g.AllItems P) (holder : Holder) (ids : List ItemId) (id : ItemId)
    (link : Option Holder) : (g.relist holder ids id link).AllItems P :=
  h.of_item? (item?_relist holder ids id · link)

/-- An insertion keeps what is true of all items. -/
theorem AllItems.insert (h : g.AllItems P) {target : Holder} {index : Nat} {id : ItemId}
    (hInsert : g.insert target index id = .ok g') : g'.AllItems P := by
  obtain ⟨_, _, _, _, _, rfl⟩ := insert_eq_ok hInsert
  exact h.relist _ _ _ _

/-- A removal keeps what is true of all items. -/
theorem AllItems.remove (h : g.AllItems P) {holder : Holder} {id : ItemId}
    (hRemove : g.remove holder id = .ok g') : g'.AllItems P := by
  obtain ⟨_, rfl⟩ := remove_eq_ok hRemove
  exact h.relist _ _ _ _

/-- Taking an item from its holder keeps what is true of all items. -/
theorem AllItems.detach (h : g.AllItems P) {id : ItemId} {former : Option Holder}
    (hDetach : g.detach id = .ok (former, g')) : g'.AllItems P := by
  rcases (detach_eq_ok hDetach).2 with ⟨_, rfl⟩ | ⟨holder, hRemove⟩
  · exact h.of_item? (item?_setHolder id · none)
  · exact h.remove hRemove

/-- A move keeps what is true of all items, whether it goes through or not. -/
theorem AllItems.move (h : g.AllItems P) (id : ItemId) (target : Holder) :
    (g.move id target).2.AllItems P := by
  obtain hSame | ⟨former, g₁, hDetach, hOut | ⟨holder, -, hAdd⟩⟩ := g.move_cases id target
  · rw [hSame]
    exact h
  · rw [hOut]
    exact h.detach hDetach
  · exact (h.detach hDetach).insert hAdd

/-- **New items have a property if all items of the planted trees have it.** -/
theorem AllItems.planted (h : g.AllItems P) {holder : Option Holder} {ids : List ItemId}
    {ts : List ItemTree} (hPlanted : Planted g g' holder ids ts)
    (hTrees : ItemTree.EveryOf (fun i _ => P i) ts) : g'.AllItems P := by
  intro j i hi
  obtain ⟨n, hn, rfl⟩ := item?_eq_some.1 hi
  by_cases hOld : j < g.next
  · rw [hPlanted.old j hOld] at hn
    exact h j n.item (item?_eq_some.2 ⟨n, hn, rfl⟩)
  · exact hPlanted.items P hTrees j n (Nat.not_lt.1 hOld) hn

/-- A spill keeps what is true of all items, if it is true of the new data. -/
theorem AllItems.spill (h : g.AllItems P) (id : ItemId) (item : Item) (hItem : P item) :
    (g.spill id item).AllItems P := by
  intro j i hi
  rw [item?_spill] at hi
  split_ifs at hi with hj
  · obtain ⟨_, _, rfl⟩ := Option.map_eq_some_iff.1 hi
    exact hItem
  · exact h j i hi

/-- A change of type keeps what is true of all items, if it is kept by items that change. -/
theorem AllItems.retype {c : Catalog} (h : g.AllItems P) (id : ItemId) (newType : TypeId)
    (hBecome : ∀ i, P i → P (i.become c newType)) : (g.retype c id newType).AllItems P := by
  obtain hSame | ⟨n, hn, hRetype⟩ := g.retype_cases c id newType
  · rw [hSame]
    exact h
  · have hNew := hBecome n.item (h id n.item (item?_eq_some.2 ⟨n, hn, rfl⟩))
    obtain ⟨-, hUpdated⟩ | hSpilt := hRetype
    · rw [hUpdated]
      exact h.update id _ fun _ _ _ => hNew
    · rw [hSpilt]
      exact h.spill id _ hNew

/-- What is true of all items is true throughout the trees that are shown. -/
theorem ShowsAll.everyOf_item {ids : List ItemId} {ts : List ItemTree} (h : g.AllItems P)
    (hShows : g.ShowsAll ids ts) : ItemTree.EveryOf (fun i _ => P i) ts :=
  ShowsAll.every (fun id n hn => h id n.item (item?_eq_some.2 ⟨n, hn, rfl⟩)) ts ids hShows

/-! ## §4. Items are in the variant of their type. -/

variable {c : Catalog}

/-- Every item is in the variant that the catalog gives its type. -/
abbrev AllTyped (c : Catalog) (g : Graph) : Prop :=
  g.AllItems (Item.Typed c)

/-- Items stay of the right kind when the missing entries of one are counted. -/
theorem AllItems.setPending (h : g.AllTyped c) (id : ItemId) (f : Item → UInt32) :
    (g.update id fun i => { i with variant := i.variant.setPending (f i) }).AllTyped c :=
  h.update id _ fun i _ hi => hi.setPending (f i)

/-- Items stay of the right kind when one entry fewer is missing. -/
theorem AllItems.countDown (h : g.AllTyped c) (id : ItemId) :
    (Record.countDown g id).AllTyped c := by
  refine h.update id _ ?_
  intro i _ hi
  cases i.variant.pending with
  | some k => exact hi.setPending _
  | none => exact hi

/-- Items stay of the right kind when a record is built into the graph. -/
theorem AllItems.built (hg : g.Consistent) (h : g.AllTyped c) {r : Record} {t : ItemTree}
    (hBuilt : (r.build c).1 = .ok (some t)) : (g.create t).2.AllTyped c :=
  h.planted (planted_create hg (Record.hollow_of_build r t hBuilt))
    ⟨Record.every_of_build (fun _ _ => Record.typed_newItem?) r t hBuilt, trivial⟩

/-- Items stay of the right kind when a container is filled, record after record. -/
theorem AllItems.fillAll (rs : List Record) :
    ∀ {g : Graph} {tally : Tally}, g.Consistent → g.AllTyped c → ∀ id : ItemId,
      (Record.fillAll c id rs g tally).2.2.AllTyped c := by
  induction rs with
  | nil => exact fun _ h _ => h
  | cons r rs ih =>
    intro g tally hg h id
    rw [fillAll_cons]
    split
    next => exact h
    next => exact ih (hg.countDown id) (h.countDown id) id
    next tree more hBuilt =>
      have hTree : (r.build c).1 = .ok (some tree) := by rw [hBuilt]
      -- The new items come from a record, so they are of the right kind before they are put in.
      have hCreated := hg.create (Record.hollow_of_build r tree hTree)
      have hTyped := h.built hg hTree
      split
      next => exact hTyped
      next g' hAdd =>
        exact ih ((hCreated.add hAdd).countDown id) ((hTyped.insert hAdd).countDown id) id

/-- Items stay of the right kind when a container is filled from its record. -/
theorem AllItems.fill (hg : g.Consistent) (h : g.AllTyped c) (id : ItemId) (r : Record) :
    (r.fill c g id).2.2.AllTyped c := by
  unfold Record.fill
  split
  next => exact h
  next children _ =>
    split
    · exact h
    · exact AllItems.fillAll children (hg.setPending id fun _ => _) (h.setPending id fun _ => _) id

/-- An attempt keeps what is true of all items, if success keeps it. -/
theorem AllItems.attempt (h : g.AllItems P) {result : Except GraphError Graph}
    (hOk : ∀ g', result = .ok g' → g'.AllItems P) : (g.attempt result).AllItems P := by
  cases result with
  | ok g' => exact hOk g' rfl
  | error e => exact h

/-- Items stay of the right kind when a tree is cloned. -/
theorem AllItems.clone (hg : g.Consistent) (h : g.AllTyped c) {id copy : ItemId}
    (hClone : g.clone id = some (copy, g')) : g'.AllTyped c := by
  have hid : (g.node? id).isSome := by
    obtain ⟨t, ht, _⟩ := Option.map_eq_some_iff.1 hClone
    exact (hg.tree?_eq_some_iff.1 ht).isSome_node?
  obtain ⟨t, copy', g'', hShows, hEq, hPlanted⟩ := planted_clone hg hid
  have hSame : g'' = g' := congrArg Prod.snd (Option.some_inj.1 (hEq.symm.trans hClone))
  have hRoot : g.ShowsAll [id] [t] := ⟨hShows, trivial⟩
  have hTree := ShowsAll.everyOf_item h hRoot
  exact hSame ▸ h.planted hPlanted ⟨typed_copy t hTree.1, trivial⟩

/-- **Every action leaves every item in the variant of its type.** -/
theorem allTyped_perform (hg : g.Consistent) (h : g.AllTyped c) (a : Action) :
    (g.perform c a).AllTyped c := by
  cases a with
  | ensureTile p => exact h.of_item? (item?_ensureTile p)
  | dropTile p =>
    refine h.of_item? ?_
    intro id
    show (g.dropTile p).item? id = _
    rw [item?, node?_dropTile, Option.map_map, item?]
    congr 1
    funext n
    show (if _ then _ else _ : Node).item = n.item
    split_ifs <;> rfl
  | create typeId n =>
    unfold perform
    dsimp only
    -- A new item is made by its type, so it is in its variant.
    cases hNew : Item.create? c typeId n with
    | some i =>
      have hPlanted := planted_create hg (t := .node i []) ⟨fun h => absurd rfl h, trivial⟩
      exact h.planted hPlanted ⟨⟨Item.typed_create? hNew, trivial⟩, trivial⟩
    | none => exact h
  | clone id =>
    show AllTyped c (((g.clone id).map (·.2)).getD g)
    cases hClone : g.clone id with
    | none => exact h
    | some result => exact AllItems.clone hg h hClone
  | insert target index id =>
    rw [perform_insert]
    exact h.attempt fun g' hOk => h.insert hOk
  | add target id =>
    rw [perform_add]
    exact h.attempt fun g' hOk => h.insert hOk
  | remove holder id =>
    rw [perform_remove]
    exact h.attempt fun g' hOk => h.remove hOk
  | detach id =>
    -- An item that is taken out is the same item.
    rcases detach_perform c g id with ⟨former, hDetach⟩ | hSame
    · exact h.detach hDetach
    · rw [hSame]
      exact h
  | move id target => exact h.move id target
  | retype id newType => exact h.retype id newType fun i _ => i.typed_become newType
  | edit id e =>
    refine h.update id (·.edit c e) ?_
    intro i _ hi
    exact hi.of_sameKind (Item.typeId_edit c i e) (Item.sameKind_edit c i e)
  | build r =>
    unfold perform
    dsimp only
    split
    next t _ hBuilt => exact AllItems.built hg h (by rw [hBuilt])
    next => exact h
  | fill id r => exact AllItems.fill hg h id r
  | keep handles =>
    intro id i hi
    obtain ⟨n, hn, rfl⟩ := item?_eq_some.1 hi
    exact h id n.item (item?_eq_some.2 ⟨n, (node?_retain_eq_some.1 hn).1, rfl⟩)

/-- In every run, items stay of the right kind for their types. -/
theorem allTyped_run (hg : g.Consistent) (h : g.AllTyped c) (actions : List Action) :
    (g.run c actions).AllTyped c := by
  induction actions generalizing g with
  | nil => exact h
  | cons a actions ih => exact ih (hg.perform a) (allTyped_perform hg h a)

end Graph

end Homestead
