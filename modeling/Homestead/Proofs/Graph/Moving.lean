/-
  Homestead.Proofs.Graph.Moving
  ─────────────────────────────
  **AN ITEM IS MOVED, OR NOTHING HAPPENS.**

  Putting an item somewhere, taking it away and moving it change one link
  and at most two lists, and these lists in one place each.  Where they are
  refused they change nothing.  For moving this takes an argument, since
  the item is taken out before it is put in: what the target says of an
  item that lies somewhere is what it says once the item lies nowhere, so
  the check at the start is the last one that can fail.

  Main results:
    * `Rehung` — what differs when an item has another holder;
    * `Consistent.detach_eq` — an item can always be detached;
    * `Consistent.move_eq` — the two ways in which a move ends;
    * `WhollyOrNot` — an operation that leaves no half of itself behind;
    * `Reachable.handling_atomic_local` — all of it, in reachable graphs.
-/
import Homestead.Proofs.Graph.Reachable
import Homestead.Proofs.Graph.Success

namespace Homestead

namespace Graph

variable {g g' g'' : Graph} {id : ItemId}

/-! ## §1. Another holder for an item. -/

/-- `g'` is `g` with `latter` in place of `former` as what holds an item. -/
structure Rehung (g g' : Graph) (id : ItemId) (former latter : Option Holder) : Prop where
  /-- The item is linked to its new holder. -/
  link : (g'.node? id).map (·.holder) = some latter
  /-- All others have the links that they had. -/
  links : ∀ j, j ≠ id → (g'.node? j).map (·.holder) = (g.node? j).map (·.holder)
  /-- The items are as before. -/
  items : ∀ j, g'.item? j = g.item? j
  /-- The item stands in the list of its new holder only. -/
  listed : ∀ h, id ∈ g'.contents h ↔ latter = some h
  /-- Holders that it had no part in have the lists that they had. -/
  lists : ∀ h, former ≠ some h → latter ≠ some h → g'.contents h = g.contents h
  /-- In every list the others stand in the order in which they stood. -/
  order : ∀ h, (g'.contents h).filter (· ≠ id) = (g.contents h).filter (· ≠ id)
  /-- The same tiles are there, in the same houses. -/
  houses : ∀ p, (g'.tile? p).map (·.house) = (g.tile? p).map (·.house)
  /-- No number was given out. -/
  next : g'.next = g.next

/-- Out of one holder, and then into another one or the same. -/
theorem Rehung.trans {former latter : Option Holder} (h : Rehung g g' id former none)
    (h' : Rehung g' g'' id none latter) : Rehung g g'' id former latter where
  link := h'.link
  links j hj := (h'.links j hj).trans (h.links j hj)
  items j := (h'.items j).trans (h.items j)
  listed := h'.listed
  lists holder hFormer hLatter :=
    (h'.lists holder (by simp) hLatter).trans (h.lists holder hFormer (by simp))
  order holder := (h'.order holder).trans (h.order holder)
  houses p := (h'.houses p).trans (h.houses p)
  next := h'.next.trans h.next

/-- Only the item that is named gets another link. -/
theorem holder_relist (holder : Holder) (ids : List ItemId) (id j : ItemId)
    (link : Option Holder) :
    ((g.relist holder ids id link).node? j).map (·.holder)
      = (g.node? j).map fun n => if j = id then link else n.holder := by
  rw [node?_relist, Option.map_map]
  rfl

/-- What is the same whenever one list and one link change. -/
theorem rehung_relist {holder : Holder} {ids : List ItemId} {former latter : Option Holder}
    (hid : (g.node? id).isSome) (hLive : g.isLive holder = true)
    (hHolder : former = some holder ∨ latter = some holder)
    (hOrder : ids.filter (· ≠ id) = (g.contents holder).filter (· ≠ id))
    (hListed : ∀ h, id ∈ (g.relist holder ids id latter).contents h ↔ latter = some h) :
    Rehung g (g.relist holder ids id latter) id former latter := by
  have hContents := contents_relist hLive ids id latter
  constructor
  case link =>
    obtain ⟨n, hn⟩ := Option.isSome_iff_exists.1 hid
    rw [holder_relist, hn, Option.map_some, if_pos rfl]
  case links =>
    intro j hj
    rw [holder_relist]
    simp only [if_neg hj]
  case items => exact fun j => item?_relist holder ids id j latter
  case listed => exact hListed
  -- A holder that is neither the former nor the latter one is not the one whose list is written.
  case lists =>
    intro h hFormer hLatter
    rw [hContents, if_neg]
    rintro rfl
    rcases hHolder with hEq | hEq
    · exact hFormer hEq
    · exact hLatter hEq
  case order =>
    intro h
    rw [hContents]
    split_ifs with hh
    · rw [hh]
      exact hOrder
    · rfl
  case houses => exact house_relist holder ids id latter
  case next => exact next_relist holder ids id latter

/-- But for what is inserted a list stays as it was. -/
theorem filter_insertAt (index : Nat) (id : ItemId) (ids : List ItemId) :
    (insertAt index id ids).filter (· ≠ id) = ids.filter (· ≠ id) := by
  rw [insertAt, List.filter_append, List.filter_cons_of_neg (by simp), ← List.filter_append,
    List.take_append_drop]

/-- The place of what is inserted: the one that is asked for, or the end. -/
theorem getElem?_insertAt (index : Nat) (id : ItemId) (ids : List ItemId) :
    (insertAt index id ids)[min index ids.length]? = some id := by
  have hLength : (ids.take index).length = min index ids.length := List.length_take
  rw [insertAt, List.getElem?_append_right (by omega), hLength, Nat.sub_self]
  rfl

/-- **An item that lay nowhere lies in a holder.** -/
theorem Consistent.rehung_place (hg : g.Consistent) {target : Holder} {n : Node} (index : Nat)
    (hn : g.node? id = some n) (hFree : n.holder = none) (hLive : g.isLive target = true) :
    Rehung g (g.relist target (insertAt index id (g.contents target)) id (some target)) id none
      (some target) := by
  refine rehung_relist (by rw [hn]; rfl) hLive (.inr rfl) (filter_insertAt index id _) ?_
  intro h
  rw [contents_relist hLive, Option.some_inj]
  split_ifs with hh
  · exact ⟨fun _ => hh.symm, fun _ => mem_insertAt.2 (.inl rfl)⟩
  · exact ⟨fun hMem => absurd hMem (hg.not_mem_contents hn hFree h), fun hEq => absurd hEq.symm hh⟩

/-- **An item that lay in a holder lies nowhere.** -/
theorem Consistent.rehung_release (hg : g.Consistent) {holder : Holder}
    (hMem : id ∈ g.contents holder) :
    Rehung g (g.relist holder ((g.contents holder).erase id) id none) id (some holder) none := by
  have hLive := g.isLive_of_mem_contents hMem
  obtain ⟨n, hn, _⟩ := hg.linked holder id hMem
  -- The item stands in the list once, so no other entry of it is left.
  have hErase : (g.contents holder).erase id = (g.contents holder).filter (· ≠ id) := by
    rw [(hg.nodup holder).erase_eq_filter id]
    refine List.filter_congr ?_
    intro j _
    by_cases hj : j = id <;> simp [hj]
  refine rehung_relist (by rw [hn]; rfl) hLive (.inl rfl) ?_ ?_
  · rw [hErase, List.filter_filter]
    simp only [Bool.and_self]
  · intro h
    rw [contents_relist hLive]
    refine iff_of_false ?_ (by simp)
    split_ifs with hh
    · exact (hg.nodup holder).not_mem_erase
    · intro hOther
      exact hh (hg.holder_unique hOther hMem)

/-- **An item whose holder is gone, or that has none, is free.** -/
theorem Consistent.rehung_unlink (hg : g.Consistent) (hid : (g.node? id).isSome)
    (hParent : g.parent? id = none) : Rehung g (g.setHolder id none) id none none := by
  obtain ⟨n, hn⟩ := Option.isSome_iff_exists.1 hid
  -- The link goes to nothing that lists the item, so no list changes with it.
  constructor
  case link =>
    rw [node?_setHolder, if_pos rfl, hn]
    rfl
  case links =>
    intro j hj
    rw [node?_setHolder, if_neg hj]
  case items => exact fun j => item?_setHolder id j none
  case listed =>
    intro h
    rw [contents_setHolder, hg.mem_contents_iff, hParent]
  case lists => exact fun h _ _ => contents_setHolder g id none h
  case order =>
    intro h
    rw [contents_setHolder]
  case houses =>
    intro p
    rw [tile?_eq_of_tiles (tiles_setHolder g id none)]
  case next => exact next_setHolder g id none

/-! ## §2. Putting and taking. -/

/-- A free item has no parent. -/
theorem parent?_of_free {n : Node} (hn : g.node? id = some n) (hFree : n.holder = none) :
    g.parent? id = none := by
  rw [parent?, hn, Option.bind_some, hFree]
  rfl

/-- **Putting an item in changes its link and one list**, in one place. -/
theorem Consistent.rehung_insert (hg : g.Consistent) {target : Holder} {index : Nat}
    (h : g.insert target index id = .ok g') :
    Rehung g g' id (g.parent? id) (some target)
      ∧ (g'.contents target)[min index (g.contents target).length]? = some id := by
  obtain ⟨n, hn, hFree, hLive, _, rfl⟩ := insert_eq_ok h
  rw [parent?_of_free hn hFree]
  refine ⟨hg.rehung_place index hn hFree hLive, ?_⟩
  rw [contents_relist hLive, if_pos rfl]
  exact getElem?_insertAt index id (g.contents target)

/-- **Putting an item at the end.** -/
theorem Consistent.rehung_add (hg : g.Consistent) {target : Holder}
    (h : g.add target id = .ok g') :
    Rehung g g' id (g.parent? id) (some target) ∧ (g'.contents target).getLast? = some id := by
  obtain ⟨n, hn, hFree, hLive, _, rfl⟩ := insert_eq_ok h
  rw [parent?_of_free hn hFree]
  refine ⟨hg.rehung_place _ hn hFree hLive, ?_⟩
  rw [contents_relist hLive, if_pos rfl, insertAt_length]
  exact List.getLast?_concat

/-- **Taking an item out changes its link and one list.** -/
theorem Consistent.rehung_remove (hg : g.Consistent) {holder : Holder}
    (h : g.remove holder id = .ok g') :
    g.parent? id = some holder ∧ Rehung g g' id (g.parent? id) none := by
  obtain ⟨hMem, rfl⟩ := remove_eq_ok h
  have hParent := hg.mem_contents_iff.1 hMem
  rw [hParent]
  exact ⟨rfl, hg.rehung_release hMem⟩

/-- **An item can always be detached.** -/
theorem Consistent.detach_eq (hg : g.Consistent) (hid : (g.node? id).isSome) :
    ∃ g', g.detach id = .ok (g.parent? id, g') ∧ Rehung g g' id (g.parent? id) none := by
  cases hParent : g.parent? id with
  | none =>
    refine ⟨g.setHolder id none, ?_, hg.rehung_unlink hid hParent⟩
    rw [Graph.detach_eq, hParent]
  | some holder =>
    -- What links name stands in the lists, so the holder gives the item away.
    have hMem := hg.mem_contents_iff.2 hParent
    refine ⟨_, ?_, hg.rehung_release hMem⟩
    rw [Graph.detach_eq, hParent]
    dsimp only
    rw [remove_eq, if_pos (List.contains_iff_mem.2 hMem)]
    rfl

/-! ## §3. Moving. -/

/-- Nothing comes to lie in anything when an item is taken away. -/
theorem Rehung.reaches_of_released {former : Option Holder} (h : Rehung g g' id former none)
    {j k : ItemId} (hReach : g'.Reaches j k) : g.Reaches j k := by
  refine Relation.ReflTransGen.mono ?_ j k hReach
  intro inner outer hLies
  have hne : inner ≠ id := by
    rintro rfl
    cases (h.listed _).1 hLies
  have hOther : inner ∈ (g'.contents (.item outer)).filter (· ≠ id) :=
    List.mem_filter.2 ⟨hLies, by simpa using hne⟩
  rw [h.order] at hOther
  exact List.mem_of_mem_filter hOther

/-- **What an item was allowed into while it lay somewhere takes it when it lies nowhere.** -/
theorem Consistent.add_of_checkMove (hg : g.Consistent) (hg' : g'.Consistent) {target : Holder}
    {former : Option Holder} (hReleased : Rehung g g' id former none)
    (hLive : g.isLive target = true) (hCheck : g.checkMove id target = .ok ()) :
    ∃ g'', g'.add target id = .ok g'' := by
  obtain ⟨n, hn, hFree⟩ := Option.map_eq_some_iff.1 hReleased.link
  cases target with
  | tile p =>
    refine ⟨_, add_tile hn hFree ?_⟩
    have hSome := congrArg Option.isSome (hReleased.houses p)
    rw [Option.isSome_map, Option.isSome_map] at hSome
    exact hSome.trans hLive
  | item c =>
    have hTarget : g.checkTarget (.item c) id = .ok () := hCheck
    unfold checkTarget at hTarget
    dsimp only at hTarget
    split_ifs at hTarget with hHolds hEncloses
    refine ⟨_, hg'.add_item hn hFree ?_ ?_⟩
    · have hSame : g'.isContainer c = g.isContainer c :=
        congrArg (Option.any Item.isContainer) (hReleased.items c)
      rw [hSame]
      simpa using hHolds
    · -- Nothing has been put anywhere, so the target lies in the item no more than before.
      intro hReach
      exact hEncloses (hg.encloses_iff.2 (hReleased.reaches_of_released hReach))

/-- **A move is refused before anything has happened, or the item is moved to the end of its
target.**  It is never put back, and never lost. -/
theorem Consistent.move_eq (hg : g.Consistent) {target : Holder} (hid : (g.node? id).isSome)
    (hLive : g.isLive target = true) :
    (∃ e, g.checkMove id target = .error e ∧ g.move id target = (.refused e, g))
    ∨ g.checkMove id target = .ok () ∧ ∃ g', g.move id target = (.moved, g')
      ∧ Rehung g g' id (g.parent? id) (some target)
      ∧ (g'.contents target).getLast? = some id := by
  rw [Graph.move_eq]
  cases hCheck : g.checkMove id target with
  | error e => exact .inl ⟨e, rfl, rfl⟩
  | ok =>
    obtain ⟨g₁, hDetach, hReleased⟩ := hg.detach_eq hid
    have hg₁ := hg.detach hDetach
    obtain ⟨g₂, hAdd⟩ := hg.add_of_checkMove hg₁ hReleased hLive hCheck
    obtain ⟨hPlaced, hLast⟩ := hg₁.rehung_add hAdd
    -- Once it is detached it has no holder, so what it is put into is all that is new.
    obtain ⟨n, hn, hFree⟩ := Option.map_eq_some_iff.1 hReleased.link
    rw [parent?_of_free hn hFree] at hPlaced
    refine .inr ⟨rfl, g₂, ?_, hReleased.trans hPlaced, hLast⟩
    dsimp only
    rw [hDetach]
    dsimp only
    rw [hAdd]

/-! ## §4. Reachable graphs. -/

/-- An operation that is refused gives the graph back as it was; `Done` is true of what it leaves
otherwise. -/
def WhollyOrNot (g : Graph) (x : Except GraphError Unit × Graph) (Done : Graph → Prop) : Prop :=
  match x with
  | (.error _, g') => g' = g
  | (.ok (), g') => Done g'

/-- What is left of an attempt is the graph as it was, or what success makes. -/
theorem whollyOrNot_leave {result : Except GraphError Graph} {Done : Graph → Prop}
    (hOk : ∀ g', result = .ok g' → Done g') : WhollyOrNot g (g.leave result) Done := by
  cases result with
  | error e => rfl
  | ok g' => exact hOk g' rfl

/-- **Items are handled wholly or not at all, and nothing else is touched.**

In a graph that is reached, with an item and a holder that are there, an insertion, an addition or
a removal that is refused gives the graph back as it was, and so does a move, which is refused by
its checks or not at all: an item is never put back.  Detaching never fails.  Where they go through,
the link of the item and the lists of its old and new holder are all that changes, the other items
of these lists keep their order, and the item stands where it was put: at the index or the end,
whichever comes first, or at the end, also if it is moved to the holder that it lies in. -/
theorem Reachable.handling_atomic_local (hg : g.Reachable) (c : Catalog) (hid : (g.node? id).isSome)
    {target : Holder} (hLive : g.isLive target = true) (index : Nat) :
    (g.perform c (.insert target index id) = (g.tryInsert target index id).2
      ∧ WhollyOrNot g (g.tryInsert target index id) fun g' =>
        Rehung g g' id (g.parent? id) (some target)
          ∧ (g'.contents target)[min index (g.contents target).length]? = some id)
    ∧ (g.perform c (.add target id) = (g.tryAdd target id).2
      ∧ WhollyOrNot g (g.tryAdd target id) fun g' =>
        Rehung g g' id (g.parent? id) (some target) ∧ (g'.contents target).getLast? = some id)
    ∧ (g.perform c (.remove target id) = (g.tryRemove target id).2
      ∧ WhollyOrNot g (g.tryRemove target id) fun g' =>
        g.parent? id = some target ∧ Rehung g g' id (g.parent? id) none)
    ∧ (∃ g', g.tryDetach id = (.ok (g.parent? id), g') ∧ g.perform c (.detach id) = g'
      ∧ Rehung g g' id (g.parent? id) none)
    ∧ ((∃ e, g.checkMove id target = .error e ∧ g.move id target = (.refused e, g))
      ∨ g.checkMove id target = .ok () ∧ ∃ g', g.move id target = (.moved, g')
        ∧ Rehung g g' id (g.parent? id) (some target)
        ∧ (g'.contents target).getLast? = some id) := by
  have hConsistent := hg.consistent
  refine ⟨?insert, ?add, ?remove, ?detach, hConsistent.move_eq hid hLive⟩
  -- What an operation leaves follows from its result, since an error leaves what was there.
  case insert =>
    rw [tryInsert_eq]
    exact ⟨perform_insert c g target index id |>.trans (attempt_eq g _),
      whollyOrNot_leave fun _ => hConsistent.rehung_insert⟩
  case add =>
    rw [tryAdd_eq]
    exact ⟨perform_add c g target id |>.trans (attempt_eq g _),
      whollyOrNot_leave fun _ => hConsistent.rehung_add⟩
  case remove =>
    rw [tryRemove_eq]
    exact ⟨perform_remove c g target id |>.trans (attempt_eq g _),
      whollyOrNot_leave fun _ => hConsistent.rehung_remove⟩
  case detach =>
    obtain ⟨g', hDetach, hRehung⟩ := hConsistent.detach_eq hid
    have hLeft := g.tryDetach_eq id
    rw [hDetach] at hLeft
    exact ⟨g', hLeft, congrArg Prod.snd hLeft, hRehung⟩

/-- Two bags in a bag on a tile. -/
def threeBags : List Action :=
  twoBags ++ [.create 1 0, .add (.item 0) 2]

/-- The first of two bags in a bag is moved to the bag that it lies in, and becomes the last. -/
theorem handling_atomic_local_threeBags :
    ((empty.run bagCatalog threeBags).node? 1).isSome
      ∧ (empty.run bagCatalog threeBags).isLive (.item 0) = true
      ∧ (empty.run bagCatalog threeBags).contents (.item 0) = [1, 2]
      ∧ ∃ g', (empty.run bagCatalog threeBags).move 1 (.item 0) = (.moved, g')
        ∧ Rehung (empty.run bagCatalog threeBags) g' 1 (some (.item 0)) (some (.item 0))
        ∧ (g'.contents (.item 0)).getLast? = some 1 := by
  have hNode : ((empty.run bagCatalog threeBags).node? 1).isSome := by decide +kernel
  have hLive : (empty.run bagCatalog threeBags).isLive (.item 0) = true := by decide +kernel
  have hParent : (empty.run bagCatalog threeBags).parent? 1 = some (.item 0) := by decide +kernel
  have hCheck : ((empty.run bagCatalog threeBags).checkMove 1 (.item 0)).toBool = true := by
    decide +kernel
  obtain ⟨_, _, _, _, hMove⟩ := (Reachable.empty.run bagCatalog threeBags).handling_atomic_local
    bagCatalog hNode hLive 0
  refine ⟨hNode, hLive, by decide +kernel, ?_⟩
  -- The theorem leaves open whether the move is refused; the checks that were computed rule it out.
  rcases hMove with ⟨e, hError, _⟩ | ⟨_, hMoved⟩
  · rw [hError] at hCheck
    cases hCheck
  · rwa [hParent] at hMoved

end Graph

end Homestead
