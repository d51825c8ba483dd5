/-
  Homestead.Proofs.Graph.Walks
  ────────────────────────────
  **WALKS OUTWARDS FIND THE ROOT.**

  From an item a walk follows links, from holder to holder, until there is
  none that exists.  Lists are looked at from the other side: they say what
  lies in what, from the root inwards.  Where links and lists agree both
  tell the same, so a walk ends, at the tile on which the item lies, or at
  the outermost container in which it lies, or where it began.

  The walk is a relation here, with a step for each link and no bound on
  their number.  That no walk is longer than there are nodes comes out of
  the rank that grows inwards.

  Main results:
    * `Consistent.outward_iff` — a walk ends, and is not cut off;
    * `Consistent.outward_ends` — where it ends;
    * `Consistent.insert_eq_wouldCycle_iff` — what may not lie in what;
    * `Reachable.walks_find_root` — all of it, in reachable graphs.
-/
import Homestead.Proofs.Graph.Reachable
import Homestead.Proofs.Graph.Success

namespace Homestead

namespace Graph

variable {g : Graph} {id c : ItemId} {p : Position} {hs : List Holder}

/-! ## §1. Walks. -/

/-- The walk from an item outwards passes these holders, and ends. -/
inductive Outward (g : Graph) : ItemId → List Holder → Prop where
  /-- There is no holder, or it exists no more. -/
  | free {id : ItemId} (h : g.parent? id = none) : Outward g id []
  /-- The holder is a tile. -/
  | tile {id : ItemId} {p : Position} (h : g.parent? id = some (.tile p)) :
    Outward g id [.tile p]
  /-- The holder is an item, and the walk goes on from it. -/
  | item {id c : ItemId} {hs : List Holder} (h : g.parent? id = some (.item c))
    (hRest : Outward g c hs) : Outward g id (.item c :: hs)

/-- There is one walk from an item. -/
theorem Outward.unique {hs' : List Holder} (h : g.Outward id hs) (h' : g.Outward id hs') :
    hs = hs' := by
  -- By induction on one walk: the parent of an item decides the next step of the other.
  induction h generalizing hs' with
  | free hNone =>
    cases h' with
    | free => rfl
    | tile hTile => cases hNone.symm.trans hTile
    | item hItem _ => cases hNone.symm.trans hItem
  | tile hTile =>
    cases h' with
    | free hNone => cases hNone.symm.trans hTile
    | tile hTile' =>
      cases hTile.symm.trans hTile'
      rfl
    | item hItem _ => cases hTile.symm.trans hItem
  | item hItem _ ih =>
    cases h' with
    | free hNone => cases hNone.symm.trans hItem
    | tile hTile => cases hTile.symm.trans hItem
    | item hItem' hRest' =>
      cases hItem.symm.trans hItem'
      rw [ih hRest']

/-- A walk of so many steps is not cut off if the item is no deeper than that. -/
theorem Consistent.outward_holdersWithin (hg : g.Consistent) {depth : ItemId → Nat}
    (hDepth : ∀ inner outer, g.Lies inner outer → depth outer < depth inner) (steps : Nat)
    (hSteps : depth id < steps) : g.Outward id (g.holdersWithin steps id) := by
  induction steps generalizing id with
  | zero => exact absurd hSteps (Nat.not_lt_zero _)
  | succ steps ih =>
    rw [holdersWithin]
    cases hParent : g.parent? id with
    | none => exact .free hParent
    | some holder =>
      cases holder with
      | tile p => exact .tile hParent
      | item c =>
        -- One step out is one level less.
        have hLess := hDepth id c (hg.parent?_item.1 hParent)
        exact .item hParent (ih (by omega))

/-- **The walk from an item ends**, and the holders of the item are those that it passes. -/
theorem Consistent.outward_iff (hg : g.Consistent) : g.Outward id hs ↔ hs = g.holders id := by
  have hWalk : g.Outward id (g.holders id) := by
    obtain ⟨depth, hDepth, hSize⟩ := hg.exists_depth
    cases hn : g.node? id with
    | some n =>
      have hBelow : depth id < g.size := hSize id (by rw [hn]; rfl)
      exact hg.outward_holdersWithin hDepth g.size hBelow
    | none =>
      -- What does not exist has no link, however many steps there are.
      have hParent : g.parent? id = none := by
        rw [parent?, hn]
        rfl
      have hNil : g.holders id = [] := by
        unfold holders
        cases g.size with
        | zero => rfl
        | succ steps => rw [holdersWithin, hParent]
      rw [hNil]
      exact .free hParent
  constructor
  · intro h
    exact h.unique hWalk
  · rintro rfl
    exact hWalk

/-! ## §2. Where walks end. -/

/-- The item is one of those on a tile, or lies in one of them, however deep. -/
def LiesOn (g : Graph) (id : ItemId) (p : Position) : Prop :=
  ∃ root ∈ g.contents (.tile p), g.Reaches id root

/-- The container holds the item, however deep, as does nothing around it. -/
structure Outermost (g : Graph) (id c : ItemId) : Prop where
  /-- The item lies in the container. -/
  holds : Relation.TransGen g.Lies id c
  /-- Whatever the item lies in is the container or lies in it. -/
  around : ∀ c', Relation.TransGen g.Lies id c' → g.Reaches c' c
  /-- The container lies nowhere. -/
  free : g.parent? c = none

/-- The outermost container of an item is that of what lies in the item. -/
theorem Outermost.inner (hg : g.Consistent) {child : ItemId} (hLies : g.Lies child id)
    (h : g.Outermost id c) : g.Outermost child c where
  holds := .head hLies h.holds
  around c' hc' := by
    obtain ⟨outer, hOuter, hRest⟩ := Relation.TransGen.head'_iff.1 hc'
    obtain rfl := Holder.item.inj (hg.holder_unique hLies hOuter)
    rcases Relation.reflTransGen_iff_eq_or_transGen.1 hRest with rfl | hTrans
    · exact h.holds.to_reflTransGen
    · exact h.around c' hTrans
  free := h.free

/-- A container that lies nowhere is the outermost one of what it holds. -/
theorem Consistent.outermost_of_free (hg : g.Consistent) (hLies : g.Lies id c)
    (hFree : g.parent? c = none) : g.Outermost id c where
  holds := .single hLies
  around c' hc' := by
    obtain ⟨outer, hOuter, hRest⟩ := Relation.TransGen.head'_iff.1 hc'
    obtain rfl := Holder.item.inj (hg.holder_unique hLies hOuter)
    -- A container further out would hold the one that lies nowhere.
    rcases Relation.ReflTransGen.cases_head hRest with rfl | ⟨next, hNext, _⟩
    · exact .refl
    · rw [hg.parent?_item.2 hNext] at hFree
      cases hFree
  free := hFree

/-- **The three ways in which a walk ends**: at once, on the tile that the item lies on, or at the
outermost container. -/
theorem Consistent.outward_ends (hg : g.Consistent) (h : g.Outward id hs) :
    hs.getLast? = none ∧ g.parent? id = none
    ∨ (∃ p, hs.getLast? = some (.tile p) ∧ g.LiesOn id p)
    ∨ ∃ c, hs.getLast? = some (.item c) ∧ g.Outermost id c := by
  induction h with
  | free hNone => exact .inl ⟨rfl, hNone⟩
  | tile hTile => exact .inr (.inl ⟨_, rfl, _, hg.mem_contents_iff.2 hTile, .refl⟩)
  | @item id c hs hItem hRest ih =>
    have hLies : g.Lies id c := hg.parent?_item.1 hItem
    rw [List.getLast?_cons]
    -- What the walk from the holder ends at, this one does too.
    rcases ih with ⟨hLast, hFree⟩ | ⟨p, hLast, root, hRoot, hReach⟩ | ⟨c', hLast, hOutermost⟩
    · rw [hLast]
      exact .inr (.inr ⟨c, rfl, hg.outermost_of_free hLies hFree⟩)
    · rw [hLast]
      exact .inr (.inl ⟨p, rfl, root, hRoot, hReach.head hLies⟩)
    · rw [hLast]
      exact .inr (.inr ⟨c', rfl, hOutermost.inner hg hLies⟩)

/-- **The outermost holder of an item**, by where it lies. -/
theorem Consistent.top?_cases (hg : g.Consistent) (id : ItemId) :
    (g.parent? id = none ∧ g.top? id = if g.isContainer id then some (.item id) else none)
    ∨ (∃ p, g.LiesOn id p ∧ g.top? id = some (.tile p))
    ∨ ∃ c, g.Outermost id c ∧ g.top? id = some (.item c) := by
  unfold top?
  rcases hg.outward_ends (hg.outward_iff.2 rfl) with
    ⟨hLast, hFree⟩ | ⟨p, hLast, hOn⟩ | ⟨c, hLast, hOutermost⟩
  · rw [hLast]
    exact .inl ⟨hFree, rfl⟩
  · rw [hLast]
    exact .inr (.inl ⟨p, hOn, rfl⟩)
  · rw [hLast]
    exact .inr (.inr ⟨c, hOutermost, rfl⟩)

/-- **The tile of an item is the one on which it lies.** -/
theorem Consistent.tileOf?_iff (hg : g.Consistent) : g.tileOf? id = some p ↔ g.LiesOn id p := by
  constructor
  · intro h
    unfold tileOf? at h
    rcases hg.top?_cases id with ⟨_, hTop⟩ | ⟨q, hOn, hTop⟩ | ⟨c, _, hTop⟩
    · -- Of the three ways to end only the one on a tile gives a tile.
      rw [hTop] at h
      split_ifs at h
    · rw [hTop] at h
      exact Option.some_inj.1 h ▸ hOn
    · rw [hTop] at h
      cases h
  · rintro ⟨root, hRoot, hReach⟩
    exact hg.tileOf?_of_reaches hRoot hReach

/-- What something lies in is a container. -/
theorem Consistent.isContainer_of_lies (hg : g.Consistent) (h : g.Lies id c) :
    g.isContainer c = true := by
  obtain ⟨n, hn⟩ := Option.isSome_iff_exists.1 (mem_ids.1 (hg.mem_ids_of_lies h).2)
  rw [Lies, g.contents_item hn] at h
  rw [isContainer, item?, hn]
  exact hg.holds c n hn (List.ne_nil_of_mem h)

/-! ## §3. What may not lie in what. -/

/-- **A cycle is refused, and only a cycle**: an item without a link, and a container that is the
item or lies in it. -/
theorem Consistent.insert_eq_wouldCycle_iff (hg : g.Consistent) {index : Nat} :
    g.insert (.item c) index id = .error .wouldCycle
      ↔ (∃ n, g.node? id = some n ∧ n.holder = none) ∧ g.isContainer c = true
        ∧ g.Reaches c id := by
  rw [← hg.encloses_iff]
  rw [insert_eq]
  unfold checkTarget
  cases hn : g.node? id with
  | none => simp
  | some n =>
    -- The checks in their order, of which the one for cycles comes last.
    cases hLink : n.holder with
    | some holder => simp [hLink]
    | none =>
      cases hHolds : g.isContainer c with
      | false => simp [hLink, hHolds, bind, Except.bind]
      | true =>
        cases hEncloses : g.encloses id c with
        | false => simp [hLink, hHolds, hEncloses, bind, Except.bind, pure, Except.pure]
        | true => simp [hLink, hHolds, hEncloses, bind, Except.bind]

/-! ## §4. Reachable graphs. -/

/-- **Walks along links find what lists say.**

In a graph that is reached, the walk from any item ends.  The tile of an item is the one on which
it lies, however deep, and there is one such tile at most.  An item that lies on no tile has for its
outermost holder the outermost container that holds it; one without a holder that exists has itself
if it is a container, and none otherwise.  Inserting an item into a container is refused as a cycle
if the item has no link and the container is the item or lies in it, and in no other case. -/
theorem Reachable.walks_find_root (hg : g.Reachable) (id : ItemId) :
    (∀ hs, g.Outward id hs ↔ hs = g.holders id)
    ∧ (∀ p, g.tileOf? id = some p ↔ g.LiesOn id p)
    ∧ (∀ p q, g.LiesOn id p → g.LiesOn id q → p = q)
    ∧ (∀ p, g.LiesOn id p → g.top? id = some (.tile p))
    ∧ (g.tileOf? id = none →
      (∃ c, g.Outermost id c ∧ g.isContainer c = true ∧ g.top? id = some (.item c))
      ∨ g.parent? id = none ∧ g.top? id = if g.isContainer id then some (.item id) else none)
    ∧ ∀ c index, g.insert (.item c) index id = .error .wouldCycle
      ↔ (∃ n, g.node? id = some n ∧ n.holder = none) ∧ g.isContainer c = true
        ∧ g.Reaches c id := by
  have hConsistent := hg.consistent
  refine ⟨fun _ => hConsistent.outward_iff, fun _ => hConsistent.tileOf?_iff, ?_, ?_, ?_,
    fun _ _ => hConsistent.insert_eq_wouldCycle_iff⟩
  · intro p q hp hq
    have hSame := (hConsistent.tileOf?_iff.2 hp).symm.trans (hConsistent.tileOf?_iff.2 hq)
    exact Option.some_inj.1 hSame
  · intro p hOn
    have hTile := hConsistent.tileOf?_iff.2 hOn
    unfold tileOf? at hTile
    split at hTile
    next q hTop =>
      rw [hTop, Option.some_inj.1 hTile]
    next => cases hTile
  · -- Without a tile the walk ends at an item that holds it, or has not begun.
    intro hNone
    rcases hConsistent.top?_cases id with hFree | ⟨p, hOn, _⟩ | ⟨c, hOutermost, hTop⟩
    · exact .inr hFree
    · rw [hConsistent.tileOf?_iff.2 hOn] at hNone
      cases hNone
    · obtain ⟨inner, _, hLies⟩ := Relation.TransGen.tail'_iff.1 hOutermost.holds
      exact .inl ⟨c, hOutermost, hConsistent.isContainer_of_lies hLies, hTop⟩

/-- A bag in a bag that lies nowhere. -/
def looseBags : List Action :=
  [.create 1 0, .create 1 0, .add (.item 0) 1]

/-- The inner bag lies in an outermost container, into which the outer bag cannot be put. -/
theorem walks_find_root_looseBags :
    (empty.run bagCatalog looseBags).tileOf? 1 = none
      ∧ (∃ c, (empty.run bagCatalog looseBags).Outermost 1 c
        ∧ (empty.run bagCatalog looseBags).isContainer c = true
        ∧ (empty.run bagCatalog looseBags).top? 1 = some (.item c))
      ∧ (empty.run bagCatalog looseBags).insert (.item 1) 0 0 = .error .wouldCycle := by
  have hReached := Reachable.empty.run bagCatalog looseBags
  have hNowhere : (empty.run bagCatalog looseBags).tileOf? 1 = none := by decide +kernel
  have hLinked : (empty.run bagCatalog looseBags).parent? 1 ≠ none := by decide +kernel
  have hLies : (empty.run bagCatalog looseBags).Lies 1 0 := by decide +kernel
  have hOuter : (empty.run bagCatalog looseBags).node? 0 = some ⟨bag, none, [1]⟩ := by
    decide +kernel
  -- The inner bag for the walk, and the outer one for the cycle.
  obtain ⟨_, _, _, _, hTop, _⟩ := hReached.walks_find_root 1
  obtain ⟨_, _, _, _, _, hCycle⟩ := hReached.walks_find_root 0
  refine ⟨hNowhere, ?_, (hCycle 1 0).2 ⟨⟨_, hOuter, rfl⟩, by decide +kernel, .single hLies⟩⟩
  rcases hTop hNowhere with hOutermost | ⟨hFree, _⟩
  · exact hOutermost
  · exact absurd hFree hLinked

end Graph

end Homestead
