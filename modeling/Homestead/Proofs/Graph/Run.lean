/-
  Homestead.Proofs.Graph.Run
  ──────────────────────────
  **WHATEVER HAPPENS TO ITEMS, LINKS AND LISTS AGREE.**

  All that can be done to items is one type of actions.  An action that is
  refused leaves the graph as it is.  Each action keeps the graph
  consistent, so every graph that actions lead to from the empty one is.

  Main results:
    * `Consistent.perform`, `Consistent.run` — one action, and many;
    * `links_and_lists_agree` — the graphs that actions lead to.
-/
import Homestead.Record.Build
import Homestead.Proofs.Graph.Existence
import Homestead.Proofs.Graph.Plant
import Homestead.Proofs.Graph.Steps
import Homestead.Proofs.Record.Built
import Homestead.Proofs.Record.RoundTrip

namespace Homestead

open Record

/-! ## §1. Actions. -/

/-- A change of an item where it lies. -/
inductive Item.Edit where
  /-- Makes an update. -/
  | update (u : Update)
  /-- Adds to a number. -/
  | increase (k : Kind) (delta : Int)
  /-- Removes an attribute. -/
  | remove (k : Kind)
  /-- Sets the count. -/
  | count (n : UInt16)

/-- Makes a change. -/
def Item.edit (c : Catalog) (i : Item) : Item.Edit → Item
  | .update u => i.apply c u
  | .increase k delta => i.increase k delta
  | .remove k => i.remove k
  | .count n => i.setCount n

/-- An edit leaves the kind of an item. -/
theorem Item.sameKind_edit (c : Catalog) (i : Item) (e : Item.Edit) :
    (i.edit c e).variant.sameKind i.variant = true := by
  cases e with
  | update u =>
    show (i.apply c u).variant.sameKind i.variant = true
    rw [variant_apply]
    exact Variant.sameKind_onVariant i.variant u
  | _ => exact Variant.sameKind_refl i.variant

/-- An edit leaves the type of an item. -/
theorem Item.typeId_edit (c : Catalog) (i : Item) (e : Item.Edit) :
    (i.edit c e).typeId = i.typeId := by
  cases e with
  | update u => exact typeId_apply c i u
  | _ => rfl

namespace Graph

/-- Something that is done to items. -/
inductive Action where
  /-- A tile is made. -/
  | ensureTile (p : Position)
  /-- A tile goes out of existence. -/
  | dropTile (p : Position)
  /-- An item is made. -/
  | create (typeId : TypeId) (n : UInt16)
  /-- An item is copied with all that it holds. -/
  | clone (id : ItemId)
  /-- An item is put into a holder at a place. -/
  | insert (target : Holder) (index : Nat) (id : ItemId)
  /-- An item is put into a holder at the end. -/
  | add (target : Holder) (id : ItemId)
  /-- An item is taken out of a holder. -/
  | remove (holder : Holder) (id : ItemId)
  /-- An item is taken out of its holder. -/
  | detach (id : ItemId)
  /-- An item is moved to a holder. -/
  | move (id : ItemId) (target : Holder)
  /-- An item gets another type. -/
  | retype (id : ItemId) (newType : TypeId)
  /-- An item is changed where it lies. -/
  | edit (id : ItemId) (e : Item.Edit)
  /-- A record is built. -/
  | build (r : Record)
  /-- A record's contents are added to an item. -/
  | fill (id : ItemId) (r : Record)
  /-- All holds on items are let go but those that are named. -/
  | keep (handles : List ItemId)

/-- Does something. -/
def perform (c : Catalog) (g : Graph) : Action → Graph
  | .ensureTile p => g.ensureTile p
  | .dropTile p => g.dropTile p
  | .create typeId n =>
    match Item.create? c typeId n with
    | some i => (g.create (.node i [])).2
    | none => g
  | .clone id => ((g.clone id).map (·.2)).getD g
  | .insert target index id => (g.tryInsert target index id).2
  | .add target id => (g.tryAdd target id).2
  | .remove holder id => (g.tryRemove holder id).2
  | .detach id => (g.tryDetach id).2
  | .move id target => (g.move id target).2
  | .retype id newType => g.retype c id newType
  | .edit id e => g.update id (·.edit c e)
  | .build r =>
    match r.build c with
    | (.ok (some t), _) => (g.create t).2
    | _ => g
  | .fill id r => (r.fill c g id).2.2
  | .keep handles => g.retain handles

/-- Does one thing after another. -/
def run (c : Catalog) (g : Graph) (actions : List Action) : Graph :=
  actions.foldl (perform c) g

/-! ### Actions that may be refused. -/

/-- An insertion is performed as an attempt. -/
theorem perform_insert (c : Catalog) (g : Graph) (target : Holder) (index : Nat) (id : ItemId) :
    g.perform c (.insert target index id) = g.attempt (g.insert target index id) := by
  rw [attempt_eq, ← tryInsert_eq]
  rfl

/-- An addition is performed as an attempt. -/
theorem perform_add (c : Catalog) (g : Graph) (target : Holder) (id : ItemId) :
    g.perform c (.add target id) = g.attempt (g.add target id) := by
  rw [attempt_eq, ← tryAdd_eq]
  rfl

/-- A removal is performed as an attempt. -/
theorem perform_remove (c : Catalog) (g : Graph) (holder : Holder) (id : ItemId) :
    g.perform c (.remove holder id) = g.attempt (g.remove holder id) := by
  rw [attempt_eq, ← tryRemove_eq]
  rfl

/-- An item is detached, or all is as it was. -/
theorem detach_perform (c : Catalog) (g : Graph) (id : ItemId) :
    (∃ former, g.detach id = .ok (former, g.perform c (.detach id)))
      ∨ g.perform c (.detach id) = g := by
  have hPerform : g.perform c (.detach id) = (g.tryDetach id).2 := rfl
  rw [hPerform, tryDetach_eq]
  cases g.detach id with
  | error e => exact .inr rfl
  | ok result => exact .inl ⟨result.1, rfl⟩

/-- Filling a container goes record by record; what it does not take stays outside. -/
theorem fillAll_cons (c : Catalog) (container : ItemId) (r : Record) (rs : List Record) (g : Graph)
    (tally : Tally) :
    fillAll c container (r :: rs) g tally = match r.build c with
      | (.error e, more) => (.error e, tally + more, g)
      | (.ok none, more) => fillAll c container rs (countDown g container) (tally + more)
      | (.ok (some tree), more) =>
        match (g.create tree).2.add (.item container) (g.create tree).1 with
        | .error e => (.error (.graph e), tally + more, (g.create tree).2)
        | .ok g => fillAll c container rs (countDown g container) (tally + more) := by
  rw [fillAll]
  rcases r.build c with ⟨e | built, more⟩
  · rfl
  · cases built with
    | none => rfl
    | some tree =>
      dsimp only
      rw [tryAdd_eq]
      cases (g.create tree).2.add (.item container) (g.create tree).1 <;> rfl

/-! ## §2. Every action keeps a graph consistent. -/

/-- An attempt keeps the links in order if success does. -/
theorem Consistent.attempt {g : Graph} (hg : g.Consistent) {result : Except GraphError Graph}
    (h : ∀ g', result = .ok g' → g'.Consistent) : (g.attempt result).Consistent := by
  cases result with
  | ok g' => exact h g' rfl
  | error e => exact hg

/-- A container stays one when its missing entries are counted. -/
theorem Variant.isContainer_setPending (v : Variant) (n : UInt32) :
    (v.setPending n).isContainer = v.isContainer := by
  cases v <;> rfl

variable {c : Catalog} {g : Graph}

/-- The links stay in order when the missing entries of an item are counted. -/
theorem Consistent.setPending (hg : g.Consistent) (id : ItemId) (f : Item → UInt32) :
    (g.update id fun i => { i with variant := i.variant.setPending (f i) }).Consistent := by
  refine hg.update id _ ?_
  intro n _ hHolds
  show (n.item.variant.setPending (f n.item)).isContainer = true
  rw [Variant.isContainer_setPending]
  exact hHolds

/-- The links stay in order when one entry fewer is missing. -/
theorem Consistent.countDown (hg : g.Consistent) (id : ItemId) :
    (countDown g id).Consistent := by
  refine hg.update id _ ?_
  intro n _ hHolds
  cases n.item.variant.pending with
  | some k =>
    show (n.item.variant.setPending _).isContainer = true
    rw [Variant.isContainer_setPending]
    exact hHolds
  | none => exact hHolds

/-- The links stay in order when a container is filled, record after record. -/
theorem Consistent.fillAll (rs : List Record) :
    ∀ {g : Graph} {tally : Tally}, g.Consistent → ∀ id : ItemId,
      (fillAll c id rs g tally).2.2.Consistent := by
  induction rs with
  | nil => exact fun hg _ => hg
  | cons r rs ih =>
    intro g tally hg id
    rw [fillAll_cons]
    split
    next => exact hg
    next => exact ih (hg.countDown id) id
    next tree more hBuilt =>
      have hCreated := hg.create (Record.hollow_of_build r tree (by rw [hBuilt]))
      -- The tree is there even if the container declines it.
      split
      next => exact hCreated
      next g' hAdd => exact ih ((hCreated.add hAdd).countDown id) id

/-- The links stay in order when a container is filled from its record. -/
theorem Consistent.fill (hg : g.Consistent) (id : ItemId) (r : Record) :
    (r.fill c g id).2.2.Consistent := by
  unfold Record.fill
  split
  next => exact hg
  next children _ =>
    split
    · exact hg
    · exact Consistent.fillAll children (hg.setPending id fun _ => _) id

/-- **Every action keeps a graph consistent.** -/
theorem Consistent.perform (hg : g.Consistent) (a : Action) : (g.perform c a).Consistent := by
  cases a with
  | ensureTile p => exact hg.ensureTile p
  | dropTile p => exact hg.dropTile p
  | create typeId n =>
    show (match Item.create? c typeId n with
      | some i => (g.create (.node i [])).2
      | none => g : Graph).Consistent
    split
    -- A new item is empty, so any type will do for it.
    next i _ => exact hg.create ⟨fun h => absurd rfl h, trivial⟩
    next => exact hg
  | clone id =>
    show (((g.clone id).map (·.2)).getD g).Consistent
    cases hClone : g.clone id with
    | none => exact hg
    | some result => exact hg.clone hClone
  | insert target index id =>
    rw [perform_insert]
    exact hg.attempt fun g' h => hg.insert h
  | add target id =>
    rw [perform_add]
    exact hg.attempt fun g' h => hg.add h
  | remove holder id =>
    rw [perform_remove]
    exact hg.attempt fun g' h => hg.remove h
  | detach id =>
    rcases detach_perform c g id with ⟨former, hDetach⟩ | hSame
    · exact hg.detach hDetach
    · rw [hSame]
      exact hg
  | move id target => exact hg.move id target
  | retype id newType => exact hg.retype c id newType
  -- An edit leaves a container a container, so what it holds may stay.
  | edit id e =>
    show (g.update id (·.edit c e)).Consistent
    refine hg.update id _ ?_
    intro n _ hHolds
    show (n.item.edit c e).variant.isContainer = true
    rw [Variant.isContainer_eq_of_sameKind (Item.sameKind_edit c n.item e)]
    exact hHolds
  | build r =>
    show (match r.build c with
      | (.ok (some t), _) => (g.create t).2
      | _ => g : Graph).Consistent
    split
    -- What was built of a record holds things in containers only.
    next t _ hBuilt => exact hg.create (Record.hollow_of_build r t (by rw [hBuilt]))
    next => exact hg
  | fill id r => exact hg.fill id r
  | keep handles => exact hg.retain handles

/-- The links stay in order in every run. -/
theorem Consistent.run (hg : g.Consistent) (actions : List Action) :
    (g.run c actions).Consistent := by
  induction actions generalizing g with
  | nil => exact hg
  | cons a actions ih => exact ih (hg.perform a)

/-- In the empty graph there is nothing to be out of order. -/
theorem consistent_empty : Graph.empty.Consistent where
  linked h id hMem := by
    -- There is no holder in which anything could lie.
    have hLive := Graph.empty.isLive_of_mem_contents hMem
    cases h <;> cases hLive
  listed id n h hn := by cases hn
  nodup h := by cases h <;> exact List.nodup_nil
  holds id n hn := by cases hn
  numbered id n hn := by cases hn
  linkNumbered id n c hn := by cases hn
  linkTiled id n p hn := by cases hn
  ranked := by
    refine ⟨fun _ => 0, ?_⟩
    intro inner outer hLies
    have hLive := Graph.empty.isLive_of_mem_contents hLies
    cases hLive

/-! ## §3. What holds of every graph that actions lead to. -/

/-- A container stays one unless it gets a known type that is none. -/
theorem isContainer_become {i : Item} (hHolds : i.isContainer = true) (newType : TypeId) :
    (i.become c newType).isContainer = (c.get? newType).all (·.isContainer) := by
  unfold Item.become
  cases hType : c.get? newType with
  | none => exact hHolds
  | some t =>
    dsimp only
    rw [Option.all_some, ← ItemType.isContainer_variant]
    split_ifs with hSame
    · exact Variant.isContainer_eq_of_sameKind hSame
    · rfl

/-- What a container holds stays, in order, if it gets a type of container or one that is unknown.
Otherwise all of it lies nowhere. -/
theorem Consistent.retype_container (hg : g.Consistent) {id : ItemId} {n : Node}
    (hn : g.node? id = some n) (hHolds : n.item.isContainer = true) (newType : TypeId) :
    if (c.get? newType).all (·.isContainer) then
      (g.retype c id newType).contents (.item id) = n.contents
        ∧ ∀ child ∈ n.contents, (g.retype c id newType).parent? child = some (.item id)
    else
      (g.retype c id newType).contents (.item id) = []
        ∧ ∀ child ∈ n.contents,
          ∃ m, (g.retype c id newType).node? child = some m ∧ m.holder = none := by
  have hKept := isContainer_become (c := c) hHolds newType
  rw [retype_eq c newType hn, hKept]
  -- It keeps its list as a container, and spills it otherwise.
  split_ifs with hContainer
  · have hContents : (g.update id fun _ => n.item.become c newType).contents (.item id)
        = n.contents := by
      rw [contents_update, g.contents_item hn]
    refine ⟨hContents, ?_⟩
    intro child hChild
    have hAfter := hg.update id (fun _ => n.item.become c newType)
      fun _ _ _ => hKept.trans hContainer
    rw [← hAfter.mem_contents_iff, hContents]
    exact hChild
  · refine ⟨by rw [contents_spill, if_pos rfl], ?_⟩
    intro child hChild
    have hLies : g.Lies child id := by
      rw [Lies, g.contents_item hn]
      exact hChild
    obtain ⟨m, hm, _⟩ := hg.linked _ _ hLies
    rw [node?_spill, hm]
    exact ⟨_, rfl, if_pos hLies⟩

/-- **In every graph that actions lead to from the empty one** what stands in the list of a holder
is linked to that holder, stands there once, and in no other list; what is linked to a holder that
exists stands in its list; and no item lies in itself, however deep.  A container that gets another
type keeps what it holds, in order, or lets go of all of it. -/
theorem links_and_lists_agree (c : Catalog) (actions : List Action) :
    (∀ h id, id ∈ (empty.run c actions).contents h →
      (empty.run c actions).parent? id = some h
        ∧ ((empty.run c actions).contents h).count id = 1
        ∧ ∀ h', h' ≠ h → id ∉ (empty.run c actions).contents h')
    ∧ (∀ h id, (empty.run c actions).parent? id = some h →
      id ∈ (empty.run c actions).contents h)
    ∧ (∀ id, ¬ Relation.TransGen (empty.run c actions).Lies id id)
    ∧ ∀ id n newType, (empty.run c actions).node? id = some n → n.item.isContainer = true →
      if (c.get? newType).all (·.isContainer) then
        ((empty.run c actions).retype c id newType).contents (.item id) = n.contents
          ∧ ∀ child ∈ n.contents,
            ((empty.run c actions).retype c id newType).parent? child = some (.item id)
      else
        ((empty.run c actions).retype c id newType).contents (.item id) = []
          ∧ ∀ child ∈ n.contents,
            ∃ m, ((empty.run c actions).retype c id newType).node? child = some m
              ∧ m.holder = none := by
  have hg := consistent_empty.run (c := c) actions
  refine ⟨?_, ?_, ?_, ?_⟩
  · intro h id hMem
    refine ⟨hg.mem_contents_iff.1 hMem, List.count_eq_one_of_mem (hg.nodup h) hMem, ?_⟩
    intro h' hne hOther
    exact hne (hg.holder_unique hOther hMem)
  · intro h id hParent
    exact hg.mem_contents_iff.2 hParent
  · exact hg.not_lies_self
  · intro id n newType hn hHolds
    exact hg.retype_container hn hHolds newType

/-- A bag in a bag on a tile.  The outer one keeps the inner one when it gets an unknown type. -/
def twoBags : List Action :=
  [.ensureTile .zero, .create 1 0, .create 1 0, .add (.tile .zero) 0, .add (.item 0) 1]

/-- A bag in a bag is linked and listed once, holds nothing that holds it, and falls out when the
outer bag becomes a thing that holds nothing. -/
theorem links_and_lists_agree_twoBags :
    (empty.run bagCatalog twoBags).parent? 1 = some (.item 0)
      ∧ ((empty.run bagCatalog twoBags).contents (.item 0)).count 1 = 1
      ∧ ¬ Relation.TransGen (empty.run bagCatalog twoBags).Lies 1 1
      ∧ ((empty.run bagCatalog twoBags).retype bagCatalog 0 9).contents (.item 0) = [1] := by
  obtain ⟨hLinked, _, hAcyclic, hRetype⟩ := links_and_lists_agree bagCatalog twoBags
  obtain ⟨hParent, hOnce, _⟩ := hLinked (.item 0) 1 (by decide +kernel)
  have hKept := hRetype 0 { item := bag, holder := some (.tile .zero), contents := [1] } 9
    (by decide +kernel) rfl
  rw [if_pos (by decide +kernel)] at hKept
  exact ⟨hParent, hOnce, hAcyclic 1, hKept.1⟩

end Graph

end Homestead
