/-
  Homestead.Proofs.Graph.Undisturbed
  ──────────────────────────────────
  **WHAT IS DONE ELSEWHERE DOES NOT SHOW IN A TREE.**

  An action touches some items: those that it moves, changes or fills, and
  the containers that it puts things into or takes them out of.  A tree of
  which it touches no item stays as it is, for as long as its root exists:
  every item in it is what it was and holds what it held.  The link of the
  root may change, and does where the holder of the root is touched or
  goes; what is in the tree does not depend on it.

  Main results:
    * `Complete` — trees that are there, as a set of items;
    * `sameWithin_perform`, `undisturbed_perform` — one action;
    * `Sparing.shows` — anything that is done elsewhere.
-/
import Homestead.Proofs.Graph.Advance
import Homestead.Proofs.Graph.Existence
import Homestead.Proofs.Graph.Reachable
import Homestead.Proofs.Graph.Regions

namespace Homestead

open Record

/-- The item that a holder is, unless it is a tile. -/
def Holder.items : Holder → List ItemId
  | .tile _ => []
  | .item id => [id]

namespace Graph

variable {g g' g'' : Graph} {S : ItemId → Prop} {c : Catalog} {id j : ItemId}

/-! ## §1. Sets of items, and what they hold. -/

/-- What an item is, and what it holds. -/
def content? (g : Graph) (id : ItemId) : Option (Item × List ItemId) :=
  (g.node? id).map fun n => (n.item, n.contents)

/-- The item lies nowhere, if it exists: it has no link. -/
def Free (g : Graph) (id : ItemId) : Prop :=
  ∀ n, g.node? id = some n → n.holder = none

/-- The set has all that lies in its items, and no number that is still to be given out. -/
structure Complete (g : Graph) (S : ItemId → Prop) : Prop where
  /-- What lies in an item of the set is in the set. -/
  inward : ∀ inner outer, g.Lies inner outer → S outer → S inner
  /-- The numbers have been given out. -/
  old : ∀ j, S j → j < g.next

/-- The items of the set are what they were and hold what they held. -/
structure SameWithin (S : ItemId → Prop) (g g' : Graph) : Prop where
  /-- Each of them is the same and holds the same. -/
  content : ∀ j, S j → g'.content? j = g.content? j
  /-- Those that lay nowhere lie nowhere. -/
  free : ∀ j, S j → g.Free j → g'.Free j
  /-- Numbers were given out. -/
  next_le : g.next ≤ g'.next

/-- The items of the set that exist still are what they were and hold what they held, all of which
exists still. -/
structure Undisturbed (S : ItemId → Prop) (g g' : Graph) : Prop where
  /-- Each of those that exist is the same and holds the same. -/
  content : ∀ j, S j → (g'.node? j).isSome → g'.content? j = g.content? j
  /-- Those that lay nowhere lie nowhere. -/
  free : ∀ j, S j → g.Free j → g'.Free j
  /-- What lies in one that exists does so too. -/
  stays : ∀ inner outer, S outer → g.Lies inner outer → (g'.node? outer).isSome →
    (g'.node? inner).isSome
  /-- Numbers were given out. -/
  next_le : g.next ≤ g'.next

/-- An item has data and contents exactly if it is there. -/
theorem isSome_content? (g : Graph) (id : ItemId) :
    (g.content? id).isSome = (g.node? id).isSome := by
  rw [content?, Option.isSome_map]

/-- What an item is and holds is read from its node. -/
theorem content?_of_node? (h : g'.node? j = g.node? j) : g'.content? j = g.content? j := by
  rw [content?, content?, h]

/-- What stands in the list of an item is part of what the item holds. -/
theorem lies_of_content? {outer : ItemId} (h : g'.content? outer = g.content? outer) :
    g'.Lies j outer ↔ g.Lies j outer := by
  have hList := congrArg (fun o => (o.map Prod.snd).getD []) h
  simp only [content?, Option.map_map] at hList
  show j ∈ g'.contents (.item outer) ↔ j ∈ g.contents (.item outer)
  rw [show g'.contents (.item outer) = g.contents (.item outer) from hList]

/-- Whether an item lies nowhere is read from its node. -/
theorem free_of_node? (h : g'.node? j = g.node? j) (hFree : g.Free j) : g'.Free j := by
  intro n hn
  exact hFree n (h ▸ hn)

/-- Where the nodes of the set are as they were. -/
theorem sameWithin_of_node? (h : ∀ j, S j → g'.node? j = g.node? j) (hNext : g.next ≤ g'.next) :
    SameWithin S g g' where
  content j hj := content?_of_node? (h j hj)
  free j hj := free_of_node? (h j hj)
  next_le := hNext

theorem SameWithin.refl (S : ItemId → Prop) (g : Graph) : SameWithin S g g :=
  sameWithin_of_node? (fun _ _ => rfl) (Nat.le_refl _)

/-- Two steps that leave a set alone do so together. -/
theorem SameWithin.trans (h : SameWithin S g g') (h' : SameWithin S g' g'') :
    SameWithin S g g'' where
  content j hj := (h'.content j hj).trans (h.content j hj)
  free j hj hFree := h'.free j hj (h.free j hj hFree)
  next_le := Nat.le_trans h.next_le h'.next_le

/-- Where nothing changes for the items of a set, none of them has gone. -/
theorem Complete.undisturbed (hS : g.Complete S) (hg : g.Consistent) (h : SameWithin S g g') :
    Undisturbed S g g' where
  content j hj _ := h.content j hj
  free := h.free
  stays inner outer hOuter hLies _ := by
    obtain ⟨n, hn, _⟩ := hg.linked _ _ hLies
    rw [← isSome_content?, h.content inner (hS.inward inner outer hLies hOuter), isSome_content?,
      hn]
    rfl
  next_le := h.next_le

/-- The set has still all that lies in its items. -/
theorem Complete.of_undisturbed (hS : g.Complete S) (h : Undisturbed S g g') : g'.Complete S where
  inward inner outer hLies hOuter := by
    have hExists : (g'.node? outer).isSome := g'.isLive_of_mem_contents hLies
    have hSame := h.content outer hOuter hExists
    exact hS.inward inner outer ((lies_of_content? hSame).1 hLies) hOuter
  old j hj := Nat.lt_of_lt_of_le (hS.old j hj) h.next_le

theorem Undisturbed.refl (S : ItemId → Prop) (hg : g.Consistent) : Undisturbed S g g where
  content _ _ _ := rfl
  free _ _ hFree := hFree
  stays _ _ _ hLies _ := mem_ids.1 (hg.mem_ids_of_lies hLies).1
  next_le := Nat.le_refl _

/-- Two steps that do not disturb a set do not do so together. -/
theorem Undisturbed.trans (h : Undisturbed S g g') (h' : Undisturbed S g' g'') :
    Undisturbed S g g'' where
  content j hj hExists := by
    have hSame := h'.content j hj hExists
    rw [← isSome_content?, hSame, isSome_content?] at hExists
    exact hSame.trans (h.content j hj hExists)
  free j hj hFree := h'.free j hj (h.free j hj hFree)
  stays inner outer hOuter hLies hExists := by
    have hSame := h'.content outer hOuter hExists
    -- What is there at the end was there in between, with the list that it had at first.
    have hBetween : (g'.node? outer).isSome := by
      rw [← isSome_content?, ← hSame, isSome_content?]
      exact hExists
    have hLies' := (lies_of_content? (h.content outer hOuter hBetween)).2 hLies
    exact h'.stays inner outer hOuter hLies' hExists
  next_le := Nat.le_trans h.next_le h'.next_le

/-- **A tree that is not touched stays as it is** as long as its root exists. -/
theorem Undisturbed.shows (h : Undisturbed S g g') {t : ItemTree} (hShows : g.Shows id t)
    (hTree : ∀ j, g.Reaches j id → S j) (hRoot : (g'.node? id).isSome) : g'.Shows id t := by
  refine Shows.of_agree t id ?_ hShows
  intro j hReach n hn
  -- From the root inwards, what lies in something that exists does so too.
  have hExists : (g'.node? j).isSome := by
    clear hn
    induction hReach using Relation.ReflTransGen.head_induction_on with
    | refl => exact hRoot
    | head hLies hRest ih => exact h.stays _ _ (hTree _ hRest) hLies ih
  have hSame := h.content j (hTree j hReach) hExists
  obtain ⟨n', hn'⟩ := Option.isSome_iff_exists.1 hExists
  rw [content?, content?, hn, hn', Option.map_some, Option.map_some, Option.some_inj] at hSame
  exact ⟨n', hn', (congrArg Prod.fst hSame).symm, (congrArg Prod.snd hSame).symm⟩

/-! ## §2. Single changes. -/

/-- A list that is written anew is the contents of its holder alone. -/
theorem content?_relist {holder : Holder} (h : holder ≠ .item j) (ids : List ItemId)
    (id : ItemId) (link : Option Holder) :
    (g.relist holder ids id link).content? j = g.content? j := by
  rw [content?, content?, node?_relist, Option.map_map]
  simp only [if_neg h]
  rfl

/-- An item that spills is the only one whose data and contents change. -/
theorem content?_spill (h : j ≠ id) (item : Item) : (g.spill id item).content? j = g.content? j := by
  rw [content?, content?, node?_spill, Option.map_map]
  simp only [if_neg h]
  rfl

/-- A tile goes out of existence; links to it name nothing any more. -/
theorem sameWithin_dropTile (S : ItemId → Prop) (g : Graph) (p : Position) :
    SameWithin S g (g.dropTile p) where
  content j _ := by
    rw [content?, content?, node?_dropTile, Option.map_map]
    congr 1
    funext n
    dsimp only [Function.comp]
    split_ifs <;> rfl
  free j _ hFree := by
    intro n hn
    -- A link that is lost was one to the tile, and the free items of the set had none.
    obtain ⟨old, hOld, _, _, ⟨hTile, _⟩ | ⟨_, hLink⟩⟩ := node?_of_dropTile hn
    · rw [hFree old hOld] at hTile
      cases hTile
    · exact hLink.trans (hFree old hOld)
  next_le := Nat.le_succ _

/-- Another list for a holder outside, and another link for an item outside. -/
theorem sameWithin_relist {holder : Holder} (h : ∀ j, holder = .item j → ¬ S j)
    (ids : List ItemId) (hid : ¬ S id) (link : Option Holder) :
    SameWithin S g (g.relist holder ids id link) where
  content j hj := by
    refine content?_relist ?_ ids id link
    rintro rfl
    exact h j rfl hj
  free j hj hFree := by
    intro n hn
    rw [node?_relist] at hn
    obtain ⟨old, hOld, rfl⟩ := Option.map_eq_some_iff.1 hn
    -- The item whose link is written is outside.
    have hne : j ≠ id := by
      rintro rfl
      exact hid hj
    show (if j = id then link else old.holder) = none
    rw [if_neg hne]
    exact hFree old hOld
  next_le := Nat.le_of_eq (next_relist holder ids id link).symm

/-- An item outside is changed. -/
theorem sameWithin_update (hid : ¬ S id) (f : Item → Item) : SameWithin S g (g.update id f) := by
  refine sameWithin_of_node? ?_ (Nat.le_of_eq (next_update g id f).symm)
  intro j hj
  rw [node?_update, if_neg]
  rintro rfl
  exact hid hj

/-- An item outside lets go of what it holds. -/
theorem sameWithin_spill (hid : ¬ S id) (item : Item) : SameWithin S g (g.spill id item) where
  content j hj := by
    refine content?_spill ?_ item
    rintro rfl
    exact hid hj
  free j _ hFree := by
    intro n hn
    rw [node?_spill] at hn
    obtain ⟨old, hOld, rfl⟩ := Option.map_eq_some_iff.1 hn
    show (if g.Lies j id then none else old.holder) = none
    rw [hFree old hOld, ite_self]
  next_le := Nat.le_of_eq (next_spill id item).symm

/-- New items come to be. -/
theorem sameWithin_planted (hOld : ∀ j, S j → j < g.next) {holder : Option Holder}
    {ids : List ItemId} {ts : List ItemTree} (h : Planted g g' holder ids ts) :
    SameWithin S g g' :=
  sameWithin_of_node? (fun j hj => h.old j (hOld j hj)) h.next_le

/-- An insertion outside of the set leaves the set alone. -/
theorem sameWithin_insert {target : Holder} {index : Nat} (hid : ¬ S id)
    (hTarget : ∀ j, target = .item j → ¬ S j) (h : g.insert target index id = .ok g') :
    SameWithin S g g' := by
  obtain ⟨_, _, _, _, _, rfl⟩ := insert_eq_ok h
  exact sameWithin_relist hTarget _ hid _

/-- A removal outside of the set leaves the set alone. -/
theorem sameWithin_remove {holder : Holder} (hid : ¬ S id)
    (hHolder : ∀ j, holder = .item j → ¬ S j) (h : g.remove holder id = .ok g') :
    SameWithin S g g' := by
  obtain ⟨_, rfl⟩ := remove_eq_ok h
  exact sameWithin_relist hHolder _ hid none

/-- An item outside does not lie in one of the set. -/
theorem Complete.not_holder (hS : g.Complete S) (hid : ¬ S id) {holder : Holder}
    (hMem : id ∈ g.contents holder) (j : ItemId) (hHolder : holder = .item j) : ¬ S j := by
  rintro hj
  subst hHolder
  exact hid (hS.inward id j hMem hj)

/-- An item outside of the set is not held in it, so taking it from its holder leaves the
set alone. -/
theorem Complete.sameWithin_detach (hS : g.Complete S) (hid : ¬ S id) {former : Option Holder}
    (h : g.detach id = .ok (former, g')) : SameWithin S g g' := by
  rcases (detach_eq_ok h).2 with ⟨_, rfl⟩ | ⟨holder, hRemove⟩
  · refine sameWithin_of_node? ?_ (Nat.le_of_eq (next_setHolder g id none).symm)
    intro j hj
    rw [node?_setHolder, if_neg]
    rintro rfl
    exact hid hj
  · exact sameWithin_remove hid (hS.not_holder hid (remove_eq_ok hRemove).1) hRemove

/-- **An item outside is moved to a holder outside**, or back to where it was. -/
theorem Complete.sameWithin_move (hS : g.Complete S) (hg : g.Consistent) (hid : ¬ S id)
    {target : Holder} (hTarget : ∀ j, target = .item j → ¬ S j) :
    SameWithin S g (g.move id target).2 := by
  obtain hSame | ⟨former, g₁, hDetach, hOut | ⟨holder, hHolder, hAdd⟩⟩ := g.move_cases id target
  · rw [hSame]
    exact .refl S g
  · rw [hOut]
    exact hS.sameWithin_detach hid hDetach
  · -- Taken out and put in: both times the holder is outside of the set.
    have hOutside : ∀ j, holder = .item j → ¬ S j := by
      rcases hHolder with rfl | hFormer
      · exact hTarget
      · have hMem : id ∈ g.contents holder :=
          hg.mem_contents_iff.2 ((detach_eq_ok hDetach).1.symm.trans hFormer)
        exact hS.not_holder hid hMem
    exact (hS.sameWithin_detach hid hDetach).trans (sameWithin_insert hid hOutside hAdd)

/-- A change of type outside of the set leaves the set alone, spilled contents included. -/
theorem sameWithin_retype (hid : ¬ S id) (newType : TypeId) :
    SameWithin S g (g.retype c id newType) := by
  obtain hSame | ⟨n, -, ⟨-, hUpdated⟩ | hSpilt⟩ := g.retype_cases c id newType
  · rw [hSame]
    exact .refl S g
  · rw [hUpdated]
    exact sameWithin_update hid _
  · rw [hSpilt]
    exact sameWithin_spill hid _

/-- A container outside of the set is filled with new items, none of them from the set. -/
theorem sameWithin_fillAll (hid : ¬ S id) (rs : List Record) :
    ∀ {g : Graph} {tally : Tally}, g.Consistent → (∀ j, S j → j < g.next) →
      SameWithin S g (fillAll c id rs g tally).2.2 := by
  induction rs with
  | nil => exact fun _ _ => .refl S _
  | cons r rs ih =>
    intro g tally hg hOld
    rw [fillAll_cons]
    split
    next => exact .refl S g
    next =>
      have hCounted : SameWithin S g (countDown g id) := sameWithin_update hid _
      refine hCounted.trans (ih (hg.countDown id) ?_)
      exact fun j hj => Nat.lt_of_lt_of_le (hOld j hj) hCounted.next_le
    next tree more hBuilt =>
      have hPlanted := planted_create hg (hollow_of_build r tree (c := c) (by rw [hBuilt]))
      have hCreated : SameWithin S g (g.create tree).2 := sameWithin_planted hOld hPlanted
      split
      next => exact hCreated
      next g' hAdd =>
        -- The new tree has numbers that were given out just now, and the set has old ones only.
        have hNew : ¬ S (g.create tree).1 := fun hMem =>
          Nat.not_le.2 (hOld _ hMem) (hPlanted.root _ List.mem_cons_self).1
        have hAdded : SameWithin S (g.create tree).2 g' := by
          refine sameWithin_insert hNew ?_ hAdd
          intro j hHolder
          rwa [← Holder.item.inj hHolder]
        have hCounted : SameWithin S g' (countDown g' id) := sameWithin_update hid _
        have hHere := (hCreated.trans hAdded).trans hCounted
        refine hHere.trans (ih ((hPlanted.consistent.add hAdd).countDown id) ?_)
        exact fun j hj => Nat.lt_of_lt_of_le (hOld j hj) hHere.next_le

/-- Filling a container outside of the set leaves the set alone. -/
theorem Complete.sameWithin_fill (hS : g.Complete S) (hg : g.Consistent) (hid : ¬ S id) (r : Record) :
    SameWithin S g (r.fill c g id).2.2 := by
  unfold fill
  split
  next => exact .refl S g
  next children _ =>
    split
    · exact .refl S g
    · have hPending : SameWithin S g (g.update id fun i =>
          { i with variant := i.variant.setPending (UInt32.ofNat children.length) }) :=
        sameWithin_update hid _
      refine hPending.trans (sameWithin_fillAll hid children (hg.setPending id fun _ => _) ?_)
      exact fun j hj => Nat.lt_of_lt_of_le (hS.old j hj) hPending.next_le

/-! ## §3. Actions. -/

/-- The items that an action changes, moves or fills, and the containers that it puts things into
or takes them out of.  Items that are made are not among them, and an item that is copied is not. -/
def Action.touched : Action → List ItemId
  | .insert target _ id | .add target id | .remove target id | .move id target => id :: target.items
  | .detach id | .retype id _ | .edit id _ | .fill id _ => [id]
  | .ensureTile _ | .dropTile _ | .create _ _ | .clone _ | .build _ | .keep _ => []

/-- An attempt leaves the set alone if success does: a refusal leaves everything. -/
theorem SameWithin.attempt {result : Except GraphError Graph}
    (h : ∀ g', result = .ok g' → SameWithin S g g') : SameWithin S g (g.attempt result) := by
  cases result with
  | ok g' => exact h g' rfl
  | error e => exact .refl S g

/-- A holder that an action touches is no item of the set. -/
theorem not_holder_of_touched {holder : Holder} (h : ∀ j ∈ id :: holder.items, ¬ S j) (j : ItemId)
    (hHolder : holder = .item j) : ¬ S j := by
  subst hHolder
  exact h j (List.mem_cons_of_mem id List.mem_cons_self)

/-- **An action that touches no item of a set changes none of them**, unless it lets items go. -/
theorem Complete.sameWithin_perform (hS : g.Complete S) (hg : g.Consistent) {a : Action}
    (h : ∀ j ∈ a.touched, ¬ S j) (hKeep : ∀ handles, a ≠ .keep handles) :
    SameWithin S g (g.perform c a) := by
  -- Each action writes the items that it touches, or items with new numbers.
  cases a with
  | ensureTile p =>
    show SameWithin S g (g.ensureTile p)
    unfold Graph.ensureTile
    split
    next => exact .refl S g
    next => exact sameWithin_of_node? (fun _ _ => rfl) (Nat.le_refl _)
  | dropTile p => exact sameWithin_dropTile S g p
  | create typeId n =>
    unfold perform
    dsimp only
    split
    next i _ =>
      exact sameWithin_planted hS.old (planted_create hg ⟨fun h => absurd rfl h, trivial⟩)
    next => exact .refl S g
  | clone id =>
    show SameWithin S g (((g.clone id).map (·.2)).getD g)
    cases hClone : g.clone id with
    | none => exact .refl S g
    | some result =>
      -- A copy is a planted tree like any other, and it is hollow as the original is.
      obtain ⟨t, ht, rfl⟩ := Option.map_eq_some_iff.1 hClone
      have hShows := hg.tree?_eq_some_iff.1 ht
      exact sameWithin_planted hS.old
        (planted_create hg (hollow_copy t (hg.hollow_of_shows t id hShows)))
  | insert target index id =>
    rw [perform_insert]
    exact .attempt fun g' hDone =>
      sameWithin_insert (h id List.mem_cons_self) (not_holder_of_touched h) hDone
  | add target id =>
    rw [perform_add]
    exact .attempt fun g' hDone =>
      sameWithin_insert (h id List.mem_cons_self) (not_holder_of_touched h) hDone
  | remove holder id =>
    rw [perform_remove]
    exact .attempt fun g' hDone =>
      sameWithin_remove (h id List.mem_cons_self) (not_holder_of_touched h) hDone
  | detach id =>
    rcases detach_perform c g id with ⟨former, hDetach⟩ | hSame
    · exact hS.sameWithin_detach (h id List.mem_cons_self) hDetach
    · rw [hSame]
      exact .refl S g
  | move id target =>
    exact hS.sameWithin_move hg (h id List.mem_cons_self) (not_holder_of_touched h)
  | retype id newType => exact sameWithin_retype (h id List.mem_cons_self) newType
  | edit id e =>
    show SameWithin S g (g.update id (·.edit c e))
    exact sameWithin_update (h id List.mem_cons_self) _
  | build r =>
    unfold perform
    dsimp only
    split
    next t _ hBuilt =>
      exact sameWithin_planted hS.old
        (planted_create hg (hollow_of_build r t (c := c) (by rw [hBuilt])))
    next => exact .refl S g
  | fill id r => exact hS.sameWithin_fill hg (h id List.mem_cons_self) r
  -- To let go of handles is the one action that takes items away.
  | keep handles => exact absurd rfl (hKeep handles)

/-- **Letting go of items leaves what stays as it is.** -/
theorem undisturbed_retain (hg : g.Consistent) (S : ItemId → Prop) (handles : List ItemId) :
    Undisturbed S g (g.retain handles) where
  content j _ hExists := by
    obtain ⟨n, hn⟩ := Option.isSome_iff_exists.1 hExists
    refine content?_of_node? ?_
    rw [hn, (node?_retain_eq_some.1 hn).1]
  free _ _ hFree n hn := hFree n (node?_retain_eq_some.1 hn).1
  stays inner outer _ hLies hExists := by
    obtain ⟨n, hn⟩ := Option.isSome_iff_exists.1 hExists
    obtain ⟨m, hm, _⟩ := hg.linked _ _ hLies
    -- What lies in an item that stays, stays.
    have hStays : g.Stays handles inner := by
      refine hg.stays_of_mem hLies ?_
      intro c hHolder
      rw [← Holder.item.inj hHolder]
      exact (node?_retain_eq_some.1 hn).2
    rw [node?_retain_eq_some.2 ⟨hm, hStays⟩]
    rfl
  next_le := Nat.le_refl _

/-- An action that touches no item of the set does not disturb it. -/
theorem Complete.undisturbed_perform (hS : g.Complete S) (hg : g.Consistent) {a : Action}
    (h : ∀ j ∈ a.touched, ¬ S j) : Undisturbed S g (g.perform c a) := by
  by_cases hKeep : ∃ handles, a = .keep handles
  · obtain ⟨handles, rfl⟩ := hKeep
    exact undisturbed_retain hg S handles
  · refine hS.undisturbed hg (hS.sameWithin_perform hg h ?_)
    intro handles hEq
    exact hKeep ⟨handles, hEq⟩

/-! ## §4. Anything that is done elsewhere. -/

/-- Things are done, none of them to the items of the set. -/
inductive Sparing (S : ItemId → Prop) (g : Graph) : Graph → Prop where
  /-- Nothing is done. -/
  | refl : Sparing S g g
  /-- An action that touches none of them. -/
  | acted {g' : Graph} (h : Sparing S g g') (c : Catalog) {a : Action}
    (ha : ∀ j ∈ a.touched, ¬ S j) : Sparing S g (g'.perform c a)
  /-- A change of another item where it lies. -/
  | changed {g' : Graph} (h : Sparing S g g') {id : ItemId} (hid : ¬ S id) (f : Item → Item)
    (hf : ∀ i, (f i).variant.sameKind i.variant = true) : Sparing S g (g'.update id f)
  /-- A tile becomes part of a house, or of none. -/
  | housed {g' : Graph} (h : Sparing S g g') (p : Position) (house : Option UInt32) :
    Sparing S g (g'.setTileHouse p house)

/-- What is reached by things done elsewhere is reached. -/
theorem Sparing.reachable (h : Sparing S g g') (hg : g.Reachable) : g'.Reachable := by
  induction h with
  | refl => exact hg
  | acted _ c _ ih => exact ih.acted c _
  | changed _ _ f hf ih => exact ih.changed _ f hf
  | housed _ p house ih => exact ih.housed p house

/-- **Whatever is done elsewhere, the set is undisturbed.** -/
theorem Sparing.undisturbed (h : Sparing S g g') (hg : g.Reachable) (hS : g.Complete S) :
    Undisturbed S g g' := by
  induction h with
  | refl => exact .refl S hg.consistent
  -- Undisturbed so far, the set is still complete, which is what a step needs.
  | acted hBefore c ha ih =>
    have hConsistent := (hBefore.reachable hg).consistent
    exact ih.trans ((hS.of_undisturbed ih).undisturbed_perform hConsistent ha)
  | changed hBefore hid f _ ih =>
    have hConsistent := (hBefore.reachable hg).consistent
    exact ih.trans ((hS.of_undisturbed ih).undisturbed hConsistent (sameWithin_update hid f))
  | housed hBefore p house ih =>
    have hConsistent := (hBefore.reachable hg).consistent
    refine ih.trans ((hS.of_undisturbed ih).undisturbed hConsistent ?_)
    unfold setTileHouse
    split
    next => exact sameWithin_of_node? (fun _ _ => rfl) (Nat.le_refl _)
    next => exact .refl S _

/-- All that lies in an item that exists, as a set. -/
theorem Consistent.complete_reaches (hg : g.Consistent) (hid : (g.node? id).isSome) :
    g.Complete (g.Reaches · id) where
  inward inner outer hLies hReach := hReach.head hLies
  old j hReach := by
    obtain ⟨n, hn⟩ := Option.isSome_iff_exists.1 hid
    exact hg.reaches_lt hReach (hg.numbered id n hn)

/-- What lies nowhere lies nowhere after whatever is done elsewhere. -/
theorem Sparing.free (h : Sparing (g.Reaches · id) g g') (hg : g.Reachable)
    (hid : (g.node? id).isSome) (hFree : g.Free id) : g'.Free id :=
  (h.undisturbed hg (hg.consistent.complete_reaches hid)).free id .refl hFree

/-- **What is done elsewhere does not show in a tree** as long as its root exists. -/
theorem Sparing.shows (h : Sparing (g.Reaches · id) g g') (hg : g.Reachable) {t : ItemTree}
    (hShows : g.Shows id t) (hRoot : (g'.node? id).isSome) : g'.Shows id t := by
  have hComplete := hg.consistent.complete_reaches hShows.isSome_node?
  exact (h.undisturbed hg hComplete).shows hShows (fun _ hReach => hReach) hRoot

end Graph

end Homestead
