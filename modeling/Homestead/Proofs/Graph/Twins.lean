/-
  Homestead.Proofs.Graph.Twins
  ────────────────────────────
  **TWO GRAPHS THAT LOOK ALIKE ON A TILE.**

  What an operation does to the items of a tile does not depend on their
  numbers, nor on what lies elsewhere.  To say so, two graphs are changed in
  step.  A pairing tells which item of one graph stands for which of the
  other; paired nodes have the same item, and links and lists that are
  paired in turn.  Every operation on paired items keeps the two graphs
  paired, and leaves what does not belong to the tile as it was.

  Main results:
    * `Twins` — graphs that are paired on a tile;
    * `Twins.updateNode`, `Twins.relist`, `Twins.retype`, `Twins.detach`,
      `Twins.create` — operations done in step;
    * `Consistent.twins_of_shows`, `Twins.showsAll` — the pairing comes of
      trees that are the same, and gives trees that are the same.
-/
import Mathlib.Data.List.Forall2
import Homestead.Proofs.Graph.Regions

namespace Homestead

namespace Graph

/-! ## §1. Pairings. -/

/-- Which item of one graph stands for which of another. -/
abbrev Pairing := ItemId → ItemId → Prop

/-- Both holders are the tile, or they are items of which one stands for the other. -/
inductive HolderPair (p : Position) (R : Pairing) : Holder → Holder → Prop where
  /-- The tile stands for itself. -/
  | tile : HolderPair p R (.tile p) (.tile p)
  /-- An item stands for an item. -/
  | item {a b : ItemId} (h : R a b) : HolderPair p R (.item a) (.item b)

/-- The nodes have the same item, and links and lists that stand for one another. -/
structure NodePair (p : Position) (R : Pairing) (n n' : Node) : Prop where
  /-- The item is the same. -/
  item : n'.item = n.item
  /-- The links stand for one another. -/
  holder : Option.Rel (HolderPair p R) n.holder n'.holder
  /-- The lists stand for one another. -/
  contents : List.Forall₂ R n.contents n'.contents

section Pairings

variable {p : Position} {R R' : Pairing}

/-- Holders stay paired when more items are. -/
theorem HolderPair.mono (hR : R ≤ R') {h h' : Holder} (hPair : HolderPair p R h h') :
    HolderPair p R' h h' := by
  cases hPair with
  | tile => exact .tile
  | item hab => exact .item (hR _ _ hab)

/-- Related answers are both missing, or both there and related. -/
theorem rel_cases {α β : Type} {P : α → β → Prop} {o : Option α} {o' : Option β}
    (h : Option.Rel P o o') :
    o = none ∧ o' = none ∨ ∃ x y, o = some x ∧ o' = some y ∧ P x y := by
  cases h with
  | none => exact .inl ⟨rfl, rfl⟩
  | some hxy => exact .inr ⟨_, _, rfl, rfl, hxy⟩

/-- Related answers are related by every wider relation. -/
theorem rel_mono {α β : Type} {P Q : α → β → Prop} (hPQ : ∀ x y, P x y → Q x y) {o : Option α}
    {o' : Option β} (h : Option.Rel P o o') : Option.Rel Q o o' := by
  cases h with
  | none => exact .none
  | some hxy => exact .some (hPQ _ _ hxy)

/-- Nodes stay paired when more items are. -/
theorem NodePair.mono (hR : R ≤ R') {n n' : Node} (h : NodePair p R n n') :
    NodePair p R' n n' where
  item := h.item
  holder := rel_mono (fun _ _ => HolderPair.mono hR) h.holder
  contents := h.contents.imp hR

/-- Taking a pair out of lists that are paired. -/
theorem forall₂_erase (hR : Relator.BiUnique R) {a b : ItemId} (hab : R a b)
    {ids ids' : List ItemId} (h : List.Forall₂ R ids ids') :
    List.Forall₂ R (ids.erase a) (ids'.erase b) := by
  induction h with
  | nil => exact .nil
  | @cons x y ids ids' hxy hRest ih =>
    by_cases hx : x = a
    · subst hx
      obtain rfl := hR.2 hxy hab
      rw [List.erase_cons_head, List.erase_cons_head]
      exact hRest
    · -- Pairs are one to one, so the other list does not lose this element either.
      have hy : y ≠ b := by
        rintro rfl
        exact hx (hR.1 hxy hab)
      rw [List.erase_cons_tail (by simpa using hx), List.erase_cons_tail (by simpa using hy)]
      exact .cons hxy ih

/-- Searching lists that are paired. -/
theorem rel_find? {f f' : ItemId → Bool} (hf : ∀ a b, R a b → f a = f' b)
    {ids ids' : List ItemId} (h : List.Forall₂ R ids ids') :
    Option.Rel R (ids.find? f) (ids'.find? f') := by
  induction h with
  | nil => exact .none
  | @cons x y ids ids' hxy _ ih =>
    rw [List.find?_cons, List.find?_cons, hf x y hxy]
    cases f' y with
    | true => exact .some hxy
    | false => exact ih

end Pairings

/-! ## §2. Twins. -/

/-- The item lies on the tile, however deep, or its number is still to be given out. -/
def Belongs (g : Graph) (p : Position) (j : ItemId) : Prop :=
  g.Around (fun id => id ∈ g.contents (.tile p)) j

/-- `g` and `g'` are paired on a tile, and `g` is `g₀` but for what belongs to the tile. -/
structure Twins (g₀ : Graph) (p : Position) (R : Pairing) (g g' : Graph) : Prop where
  /-- No item stands for two, or has two standing for it. -/
  unique : Relator.BiUnique R
  /-- Items of a pair have nodes that are paired, or neither of them is there. -/
  node : ∀ {a b}, R a b → Option.Rel (NodePair p R) (g.node? a) (g'.node? b)
  /-- Their numbers were given out. -/
  numbered : ∀ {a b}, R a b → a < g.next ∧ b < g'.next
  /-- Numbers still to be given out are no items. -/
  free : ∀ j, (g.next ≤ j → g.node? j = none) ∧ (g'.next ≤ j → g'.node? j = none)
  /-- The tile is there. -/
  isSome_tile? : (g.tile? p).isSome = true ∧ (g'.tile? p).isSome = true
  /-- What lies on it is paired. -/
  contents_tile : List.Forall₂ R (g.contents (.tile p)) (g'.contents (.tile p))
  /-- What is paired belongs to the tile. -/
  belongs : ∀ {a b}, R a b → g₀.Belongs p a
  /-- All else is as it was. -/
  spared : Spared (g₀.Belongs p) (· = p) g₀ g

variable {g₀ g g' : Graph} {p : Position} {R R' : Pairing} {a b : ItemId}

section Reading

variable (h : Twins g₀ p R g g')
include h

/-- In a pair one item is the given one just if the other one is. -/
theorem Twins.eq_iff {x y : ItemId} (hab : R a b) (hxy : R x y) : x = a ↔ y = b := by
  constructor
  · rintro rfl
    exact h.unique.2 hxy hab
  · rintro rfl
    exact h.unique.1 hxy hab

/-- Items of a pair are both there, with nodes that are paired, or neither of them is. -/
theorem Twins.node_cases (hab : R a b) :
    g.node? a = none ∧ g'.node? b = none
      ∨ ∃ n n', g.node? a = some n ∧ g'.node? b = some n' ∧ NodePair p R n n' :=
  rel_cases (h.node hab)

/-- Paired items have the same data. -/
theorem Twins.item?_eq (hab : R a b) : g'.item? b = g.item? a := by
  unfold item?
  rcases h.node_cases hab with ⟨hn, hn'⟩ | ⟨n, n', hn, hn', hPair⟩
  · rw [hn, hn']
  · rw [hn, hn', Option.map_some, Option.map_some, hPair.item]

/-- Paired holders hold paired items, in the same order. -/
theorem Twins.contents {holder holder' : Holder} (hPair : HolderPair p R holder holder') :
    List.Forall₂ R (g.contents holder) (g'.contents holder') := by
  cases hPair with
  | tile => exact h.contents_tile
  | item hab =>
    rcases h.node_cases hab with ⟨hn, hn'⟩ | ⟨n, n', hn, hn', hPair⟩
    · rw [Graph.contents, Graph.contents, hn, hn']
      exact .nil
    · rw [g.contents_item hn, g'.contents_item hn']
      exact hPair.contents

/-- Paired holders are there in both graphs or in neither. -/
theorem Twins.isLive_eq {holder holder' : Holder} (hPair : HolderPair p R holder holder') :
    g'.isLive holder' = g.isLive holder := by
  cases hPair with
  | tile => exact h.isSome_tile?.2.trans h.isSome_tile?.1.symm
  | item hab =>
    rcases h.node_cases hab with ⟨hn, hn'⟩ | ⟨n, n', hn, hn', _⟩
    · rw [isLive, isLive, hn, hn']
    · rw [isLive, isLive, hn, hn']
      rfl

/-- The holders of paired items are paired, as long as they are there. -/
theorem Twins.parent? (hab : R a b) :
    Option.Rel (HolderPair p R) (g.parent? a) (g'.parent? b) := by
  unfold Graph.parent?
  rcases h.node_cases hab with ⟨hn, hn'⟩ | ⟨n, n', hn, hn', hPair⟩
  · rw [hn, hn']
    exact .none
  · rw [hn, hn', Option.bind_some, Option.bind_some]
    rcases rel_cases hPair.holder with ⟨hh, hh'⟩ | ⟨holder, holder', hh, hh', hHolder⟩
    · rw [hh, hh']
      exact .none
    · -- A link counts only if its holder is there, on either side alike.
      rw [hh, hh', Option.filter_some, Option.filter_some, h.isLive_eq hHolder]
      split_ifs
      · exact .some hHolder
      · exact .none

end Reading

/-! ## §3. Changes in step. -/

section Changes

/-- Everything else is spared when an item of the set is written. -/
theorem Spared.updateNode {S : ItemId → Prop} {T : Position → Prop} (h : Spared S T g₀ g)
    (ha : S a) (f : Node → Node) : Spared S T g₀ (g.updateNode a f) where
  outside j hj := by
    rw [node?_updateNode, if_neg, h.outside j hj]
    rintro rfl
    exact hj ha
  tiles q hq := by rw [tile?_eq_of_tiles (tiles_updateNode g a f), h.tiles q hq]
  next_le := by
    rw [next_updateNode]
    exact h.next_le

/-- **A change of paired nodes.** -/
theorem Twins.updateNode (h : Twins g₀ p R g g') (hab : R a b) {f f' : Node → Node}
    (hf : ∀ n n', NodePair p R n n' → NodePair p R (f n) (f' n')) :
    Twins g₀ p R (g.updateNode a f) (g'.updateNode b f') where
  unique := h.unique
  node {x y} hxy := by
    rw [node?_updateNode, node?_updateNode]
    rcases h.node_cases hxy with ⟨hn, hn'⟩ | ⟨n, n', hn, hn', hPair⟩
    · rw [hn, hn', Option.map_none, Option.map_none, ite_self, ite_self]
      exact .none
    · rw [hn, hn', Option.map_some, Option.map_some]
      -- The pairing is one to one, so the pair is `a` and `b` on both sides or on neither.
      by_cases hx : x = a
      · rw [if_pos hx, if_pos ((h.eq_iff hab hxy).1 hx)]
        exact .some (hf n n' hPair)
      · rw [if_neg hx, if_neg fun hy => hx ((h.eq_iff hab hxy).2 hy)]
        exact .some hPair
  numbered hxy := by
    rw [next_updateNode, next_updateNode]
    exact h.numbered hxy
  free j := by
    rw [next_updateNode, next_updateNode, node?_updateNode, node?_updateNode]
    constructor
    · intro hj
      rw [(h.free j).1 hj, Option.map_none, ite_self]
    · intro hj
      rw [(h.free j).2 hj, Option.map_none, ite_self]
  isSome_tile? := by
    rw [tile?_eq_of_tiles (tiles_updateNode g a f), tile?_eq_of_tiles (tiles_updateNode g' b f')]
    exact h.isSome_tile?
  contents_tile := by
    rw [Graph.contents, Graph.contents, tile?_eq_of_tiles (tiles_updateNode g a f),
      tile?_eq_of_tiles (tiles_updateNode g' b f')]
    exact h.contents_tile
  belongs := h.belongs
  spared := h.spared.updateNode (h.belongs hab) f

/-- The same change of paired items. -/
theorem Twins.update (h : Twins g₀ p R g g') (hab : R a b) (f : Item → Item) :
    Twins g₀ p R (g.update a f) (g'.update b f) := by
  refine h.updateNode hab ?_
  intro n n' hPair
  exact ⟨congrArg f hPair.item, hPair.holder, hPair.contents⟩

/-- Paired links are written on both sides. -/
theorem Twins.setHolder (h : Twins g₀ p R g g') (hab : R a b) {link link' : Option Holder}
    (hLink : Option.Rel (HolderPair p R) link link') :
    Twins g₀ p R (g.setHolder a link) (g'.setHolder b link') := by
  refine h.updateNode hab ?_
  intro n n' hPair
  exact ⟨hPair.item, hLink, hPair.contents⟩

/-- Another list for the tile. -/
theorem Twins.setContents_tile (h : Twins g₀ p R g g') {ids ids' : List ItemId}
    (hIds : List.Forall₂ R ids ids') :
    Twins g₀ p R (g.setContents (.tile p) ids) (g'.setContents (.tile p) ids') := by
  -- The list is the tile's, and no node is written.
  have hNode : ∀ (g : Graph) (ids : List ItemId) j,
      (g.setContents (.tile p) ids).node? j = g.node? j := by
    intro g ids j
    rw [node?_setContents, if_neg (by simp)]
  constructor
  case unique => exact h.unique
  case node =>
    intro x y hxy
    rw [hNode, hNode]
    exact h.node hxy
  case numbered =>
    intro x y hxy
    rw [next_setContents, next_setContents]
    exact h.numbered hxy
  case free =>
    intro j
    rw [next_setContents, next_setContents, hNode, hNode]
    exact h.free j
  case isSome_tile? =>
    rw [tile?_setContents, tile?_setContents, if_pos rfl, if_pos rfl, Option.isSome_map,
      Option.isSome_map]
    exact h.isSome_tile?
  case contents_tile =>
    rw [contents_setContents _ (.tile p) _ _ h.isSome_tile?.1,
      contents_setContents _ (.tile p) _ _ h.isSome_tile?.2, if_pos rfl, if_pos rfl]
    exact hIds
  case belongs => exact h.belongs
  case spared =>
    refine ⟨?_, ?_, ?_⟩
    · intro j hj
      rw [hNode]
      exact h.spared.outside j hj
    · intro q hq
      rw [tile?_setContents, if_neg (by simpa using fun hEq => hq hEq.symm)]
      exact h.spared.tiles q hq
    · rw [next_setContents]
      exact h.spared.next_le

/-- Paired lists are written on both sides. -/
theorem Twins.setContents (h : Twins g₀ p R g g') {holder holder' : Holder}
    (hPair : HolderPair p R holder holder') {ids ids' : List ItemId}
    (hIds : List.Forall₂ R ids ids') :
    Twins g₀ p R (g.setContents holder ids) (g'.setContents holder' ids') := by
  cases hPair with
  | tile => exact h.setContents_tile hIds
  | item hab =>
    refine h.updateNode hab ?_
    intro n n' hPair
    exact ⟨hPair.item, hPair.holder, hIds⟩

/-- Another list for paired holders, and another link for paired items. -/
theorem Twins.relist (h : Twins g₀ p R g g') (hab : R a b) {holder holder' : Holder}
    (hPair : HolderPair p R holder holder') {ids ids' : List ItemId}
    (hIds : List.Forall₂ R ids ids') {link link' : Option Holder}
    (hLink : Option.Rel (HolderPair p R) link link') :
    Twins g₀ p R (g.relist holder ids a link) (g'.relist holder' ids' b link') :=
  (h.setContents hPair hIds).setHolder hab hLink

/-- Taking paired items out of paired holders, which is refused to both or to neither. -/
theorem Twins.remove (h : Twins g₀ p R g g') (hab : R a b) {holder holder' : Holder}
    (hPair : HolderPair p R holder holder') :
    g.remove holder a = .error .notFound ∧ g'.remove holder' b = .error .notFound
      ∨ ∃ g₁ g₁', g.remove holder a = .ok g₁ ∧ g'.remove holder' b = .ok g₁'
        ∧ Twins g₀ p R g₁ g₁' := by
  have hLists := h.contents hPair
  have hMem : a ∈ g.contents holder ↔ b ∈ g'.contents holder' := List.rel_mem h.unique hab hLists
  rw [remove_eq, remove_eq]
  by_cases hHeld : a ∈ g.contents holder
  · rw [if_pos (List.contains_iff_mem.2 hHeld), if_pos (List.contains_iff_mem.2 (hMem.1 hHeld))]
    exact .inr ⟨_, _, rfl, rfl, h.relist hab hPair (forall₂_erase h.unique hab hLists) .none⟩
  · rw [if_neg fun hContains => hHeld (List.contains_iff_mem.1 hContains),
      if_neg fun hContains => hHeld (hMem.2 (List.contains_iff_mem.1 hContains))]
    exact .inl ⟨rfl, rfl⟩

/-- **Taking paired items out of whatever they lie in.** -/
theorem Twins.detach (h : Twins g₀ p R g g') (hab : R a b) :
    (∃ e, g.detach a = .error e ∧ g'.detach b = .error e)
      ∨ ∃ former former' g₁ g₁', g.detach a = .ok (former, g₁) ∧ g'.detach b = .ok (former', g₁')
        ∧ Twins g₀ p R g₁ g₁' := by
  rw [Graph.detach_eq, Graph.detach_eq]
  rcases rel_cases (h.parent? hab) with ⟨hh, hh'⟩ | ⟨holder, holder', hh, hh', hPair⟩
  · rw [hh, hh']
    -- Neither item lies in anything, so only the links are cleared.
    exact .inr ⟨_, _, _, _, rfl, rfl, h.setHolder hab .none⟩
  · rw [hh, hh']
    dsimp only
    rcases h.remove hab hPair with ⟨hRefused, hRefused'⟩ | ⟨g₁, g₁', hRemove, hRemove', hTwins⟩
    · rw [hRefused, hRefused']
      -- The holders refuse with the same error.
      exact .inl ⟨_, rfl, rfl⟩
    · rw [hRemove, hRemove']
      exact .inr ⟨_, _, _, _, rfl, rfl, hTwins⟩

/-- Taking away the links of paired items. -/
theorem Twins.unlinkAll {ids ids' : List ItemId} (hIds : List.Forall₂ R ids ids')
    (h : Twins g₀ p R g g') : Twins g₀ p R (g.unlinkAll ids) (g'.unlinkAll ids') :=
  List.rel_foldl (fun _ _ hTwins _ _ hab => hTwins.setHolder hab .none) h hIds

/-- **Giving paired items another type.** -/
theorem Twins.retype (h : Twins g₀ p R g g') (hab : R a b) (c : Catalog) (newType : TypeId) :
    Twins g₀ p R (g.retype c a newType) (g'.retype c b newType) := by
  rcases h.node_cases hab with ⟨hn, hn'⟩ | ⟨n, n', hn, hn', hPair⟩
  · unfold Graph.retype
    rw [hn, hn']
    exact h
  · rw [retype_eq c newType hn, retype_eq c newType hn', hPair.item]
    -- Both items become containers or neither does, as they have the same data.
    split_ifs
    · exact h.update hab _
    · refine Twins.unlinkAll (h.contents (.item hab)) (h.updateNode hab ?_)
      intro m m' hPair
      exact ⟨rfl, hPair.holder, .nil⟩

end Changes

/-! ## §4. New items. -/

section Planting

/-- Everything else is spared when an item is entered under a number of the set. -/
theorem Spared.withNode {S : ItemId → Prop} {T : Position → Prop} (h : Spared S T g₀ g)
    (ha : S a) (n : Node) : Spared S T g₀ (g.withNode a n) where
  outside j hj := by
    rw [node?_withNode, if_neg, h.outside j hj]
    rintro rfl
    exact hj ha
  tiles := h.tiles
  next_le := h.next_le

/-- Nodes that are paired, for numbers that are. -/
theorem Twins.withNode (h : Twins g₀ p R g g') (hab : R a b) {n n' : Node}
    (hPair : NodePair p R n n') : Twins g₀ p R (g.withNode a n) (g'.withNode b n') where
  unique := h.unique
  node {x y} hxy := by
    rw [node?_withNode, node?_withNode]
    -- The pairing is one to one, so a node is written on both sides of a pair or on neither.
    by_cases hx : x = a
    · rw [if_pos hx, if_pos ((h.eq_iff hab hxy).1 hx)]
      exact .some hPair
    · rw [if_neg hx, if_neg fun hy => hx ((h.eq_iff hab hxy).2 hy)]
      exact h.node hxy
  numbered := h.numbered
  free j := by
    obtain ⟨ha, hb⟩ := h.numbered hab
    rw [node?_withNode, node?_withNode]
    constructor
    · intro hj
      rw [if_neg (Nat.ne_of_gt (Nat.lt_of_lt_of_le ha hj)), (h.free j).1 hj]
    · intro hj
      rw [if_neg (Nat.ne_of_gt (Nat.lt_of_lt_of_le hb hj)), (h.free j).2 hj]
  isSome_tile? := h.isSome_tile?
  contents_tile := h.contents_tile
  belongs := h.belongs
  spared := h.spared.withNode (h.belongs hab) n

/-- The pairing with one more pair. -/
def Pairing.with (R : Pairing) (a b : ItemId) : Pairing :=
  fun x y => R x y ∨ x = a ∧ y = b

/-- One more pair leaves the pairs there were. -/
theorem Pairing.le_with (R : Pairing) (a b : ItemId) : R ≤ R.with a b :=
  fun _ _ hxy => .inl hxy

/-- **Giving out a number on either side**, before there is an item with it. -/
theorem Twins.skip (h : Twins g₀ p R g g') :
    Twins g₀ p (R.with g.next g'.next) { g with next := g.next + 1 }
      { g' with next := g'.next + 1 } where
  -- The new pair meets no old one: paired items have numbers that were given out.
  unique := by
    constructor
    · rintro x x' y (hxy | ⟨rfl, rfl⟩) (hxy' | ⟨rfl, hy⟩)
      · exact h.unique.1 hxy hxy'
      · exact absurd (h.numbered hxy).2 (hy ▸ Nat.lt_irrefl _)
      · exact absurd (h.numbered hxy').2 (Nat.lt_irrefl _)
      · rfl
    · rintro x y y' (hxy | ⟨rfl, rfl⟩) (hxy' | ⟨hx, rfl⟩)
      · exact h.unique.2 hxy hxy'
      · exact absurd (h.numbered hxy).1 (hx ▸ Nat.lt_irrefl _)
      · exact absurd (h.numbered hxy').1 (Nat.lt_irrefl _)
      · rfl
  node {x y} hxy := by
    show Option.Rel _ (g.node? x) (g'.node? y)
    rcases hxy with hxy | ⟨rfl, rfl⟩
    · exact rel_mono (fun _ _ => NodePair.mono (R.le_with _ _)) (h.node hxy)
    · rw [(h.free g.next).1 (Nat.le_refl _), (h.free g'.next).2 (Nat.le_refl _)]
      exact .none
  numbered {x y} hxy := by
    rcases hxy with hxy | ⟨rfl, rfl⟩
    · exact ⟨Nat.lt_succ_of_lt (h.numbered hxy).1, Nat.lt_succ_of_lt (h.numbered hxy).2⟩
    · exact ⟨Nat.lt_succ_self _, Nat.lt_succ_self _⟩
  free j :=
    ⟨fun hj => (h.free j).1 (Nat.le_of_succ_le hj), fun hj => (h.free j).2 (Nat.le_of_succ_le hj)⟩
  isSome_tile? := h.isSome_tile?
  contents_tile := h.contents_tile.imp fun _ _ => .inl
  belongs {x y} hxy := by
    rcases hxy with hxy | ⟨rfl, rfl⟩
    · exact h.belongs hxy
    · exact .inl h.spared.next_le
  spared := ⟨h.spared.outside, h.spared.tiles, Nat.le_succ_of_le h.spared.next_le⟩

mutual

/-- **Making the same tree on either side.**  The new items are paired, too. -/
theorem Twins.plant : ∀ (t : ItemTree) {R : Pairing} {g g' : Graph}
    {holder holder' : Option Holder}, Twins g₀ p R g g' →
    Option.Rel (HolderPair p R) holder holder' →
    ∃ R', R ≤ R' ∧ R' (g.plant holder t).1 (g'.plant holder' t).1
      ∧ Twins g₀ p R' (g.plant holder t).2 (g'.plant holder' t).2
  | .node item contents, R, g, g', holder, holder', h, hHolder => by
    -- The number is given out first, and paired, since the contents are linked to it.
    obtain ⟨R', hR, hIds, hTwins⟩ := Twins.plantAll contents h.skip (.inr ⟨rfl, rfl⟩)
    have hR' : R ≤ R' := le_trans (R.le_with _ _) hR
    have hNew : R' g.next g'.next := hR _ _ (.inr ⟨rfl, rfl⟩)
    refine ⟨R', hR', hNew, ?_⟩
    exact hTwins.withNode hNew ⟨rfl, rel_mono (fun _ _ => HolderPair.mono hR') hHolder, hIds⟩

/-- Planting the same trees in paired items gives paired items, by induction over the trees. -/
theorem Twins.plantAll : ∀ (ts : List ItemTree) {R : Pairing} {g g' : Graph} {a b : ItemId},
    Twins g₀ p R g g' → R a b →
    ∃ R', R ≤ R' ∧ List.Forall₂ R' (g.plantAll a ts).1 (g'.plantAll b ts).1
      ∧ Twins g₀ p R' (g.plantAll a ts).2 (g'.plantAll b ts).2
  | [], R, _, _, _, _, h, _ => ⟨R, le_refl R, .nil, h⟩
  | t :: ts, R, g, g', a, b, h, hab => by
    obtain ⟨R₁, hR₁, hHead, hTwins₁⟩ := Twins.plant t h (.some (.item hab))
    obtain ⟨R₂, hR₂, hTail, hTwins₂⟩ := Twins.plantAll ts hTwins₁ (hR₁ _ _ hab)
    exact ⟨R₂, le_trans hR₁ hR₂, .cons (hR₂ _ _ hHead) hTail, hTwins₂⟩

end

/-- The same tree that is made on both sides is paired, root with root. -/
theorem Twins.create (h : Twins g₀ p R g g') (t : ItemTree) :
    ∃ R', R ≤ R' ∧ R' (g.create t).1 (g'.create t).1
      ∧ Twins g₀ p R' (g.create t).2 (g'.create t).2 :=
  Twins.plant t h .none

/-- Putting paired items at the end of paired holders. -/
theorem Twins.add (h : Twins g₀ p R g g') (hab : R a b) {holder holder' : Holder}
    (hPair : HolderPair p R holder holder') {g₁ g₁' : Graph} (hAdd : g.add holder a = .ok g₁)
    (hAdd' : g'.add holder' b = .ok g₁') : Twins g₀ p R g₁ g₁' := by
  obtain ⟨_, _, _, _, _, rfl⟩ := insert_eq_ok hAdd
  obtain ⟨_, _, _, _, _, rfl⟩ := insert_eq_ok hAdd'
  rw [insertAt_length, insertAt_length]
  exact h.relist hab hPair (List.rel_append (h.contents hPair) (.cons hab .nil)) (.some hPair)

end Planting

/-! ## §5. The same trees. -/

mutual

/-- **Paired items show the same trees.** -/
theorem Twins.shows (h : Twins g₀ p R g g') : ∀ (t : ItemTree) (a b : ItemId), R a b →
    g.Shows a t → g'.Shows b t
  | .node item contents, a, b, hab, ⟨n, hn, hItem, hAll⟩ => by
    rcases h.node_cases hab with ⟨hNone, _⟩ | ⟨m, m', hm, hm', hPair⟩
    · rw [hn] at hNone
      cases hNone
    · obtain rfl := Option.some_inj.1 (hn.symm.trans hm)
      exact ⟨m', hm', hPair.item.trans hItem, h.showsAll contents _ _ hPair.contents hAll⟩

/-- Paired items show the same trees, by induction over them. -/
theorem Twins.showsAll (h : Twins g₀ p R g g') : ∀ (ts : List ItemTree) (ids ids' : List ItemId),
    List.Forall₂ R ids ids' → g.ShowsAll ids ts → g'.ShowsAll ids' ts
  | [], _, _, .nil, _ => trivial
  | [], _, _, .cons _ _, hAll => hAll.elim
  | _ :: _, _, _, .nil, hAll => hAll.elim
  | t :: ts, _, _, .cons hab hRest, hAll =>
    ⟨h.shows t _ _ hab hAll.1, h.showsAll ts _ _ hRest hAll.2⟩

end

/-- Items at the same place of lists that show the same trees show the same tree. -/
theorem exists_shows_of_getElem? {ids ids' : List ItemId} {ts : List ItemTree}
    (hAll : g.ShowsAll ids ts) (hAll' : g'.ShowsAll ids' ts) {k : Nat} (ha : ids[k]? = some a)
    (hb : ids'[k]? = some b) : ∃ t, g.Shows a t ∧ g'.Shows b t := by
  -- By induction on the trees, with both lists one shorter at each step.
  induction ts generalizing ids ids' k with
  | nil =>
    cases ids with
    | nil => cases ha
    | cons id ids => exact hAll.elim
  | cons t ts ih =>
    cases ids with
    | nil => exact hAll.elim
    | cons id ids =>
      cases ids' with
      | nil => exact hAll'.elim
      | cons id' ids' =>
        cases k with
        | zero =>
          obtain rfl := Option.some_inj.1 ha
          obtain rfl := Option.some_inj.1 hb
          exact ⟨t, hAll.1, hAll'.1⟩
        | succ k => exact ih hAll.2 hAll'.2 ha hb

/-- `b` lies on the tile in `g'` just where `a` lies on it in `g`. -/
inductive Opposite (g g' : Graph) (p : Position) : Pairing where
  /-- They are at the same place of the list of the tile. -/
  | root {a b : ItemId} (k : Nat) (ha : (g.contents (.tile p))[k]? = some a)
    (hb : (g'.contents (.tile p))[k]? = some b) : Opposite g g' p a b
  /-- They are at the same place of the lists of items that lie at the same place. -/
  | inner {a b c d : ItemId} (k : Nat) (h : Opposite g g' p c d)
    (ha : (g.contents (.item c))[k]? = some a) (hb : (g'.contents (.item d))[k]? = some b) :
    Opposite g g' p a b

/-- Lying opposite goes both ways. -/
theorem Opposite.symm (h : Opposite g g' p a b) : Opposite g' g p b a := by
  induction h with
  | root k ha hb => exact .root k hb ha
  | inner k _ ha hb ih => exact .inner k ih hb ha

/-- In a consistent graph an item lies at one place. -/
theorem Consistent.opposite_unique (hg : g.Consistent) {b' : ItemId} (h : Opposite g g' p a b)
    (h' : Opposite g g' p a b') : b = b' := by
  have hPlace : ∀ {holder : Holder} {x : ItemId} {k k' : Nat}, (g.contents holder)[k]? = some x →
      (g.contents holder)[k']? = some x → k = k' := by
    intro holder x k k' hk hk'
    obtain ⟨hLess, _⟩ := List.getElem?_eq_some_iff.1 hk
    exact (List.getElem?_inj hLess (hg.nodup holder)).1 (hk.trans hk'.symm)
  -- By induction on how deep the item lies: its holder and its place in there are determined.
  induction h generalizing b' with
  | root k ha hb =>
    cases h' with
    | root k' ha' hb' =>
      obtain rfl := hPlace ha ha'
      exact Option.some_inj.1 (hb.symm.trans hb')
    | inner k' _ ha' _ =>
      cases hg.holder_unique (List.mem_of_getElem? ha) (List.mem_of_getElem? ha')
  | inner k _ ha hb ih =>
    cases h' with
    | root k' ha' _ =>
      cases hg.holder_unique (List.mem_of_getElem? ha) (List.mem_of_getElem? ha')
    | inner k' h' ha' hb' =>
      obtain rfl := Holder.item.inj
        (hg.holder_unique (List.mem_of_getElem? ha) (List.mem_of_getElem? ha'))
      obtain rfl := ih h'
      obtain rfl := hPlace ha ha'
      exact Option.some_inj.1 (hb.symm.trans hb')

/-- Items that lie opposite on tiles with the same trees show the same tree. -/
theorem Opposite.shows {ts : List ItemTree} (hAll : g.ShowsAll (g.contents (.tile p)) ts)
    (hAll' : g'.ShowsAll (g'.contents (.tile p)) ts) (h : Opposite g g' p a b) :
    ∃ t, g.Shows a t ∧ g'.Shows b t := by
  induction h with
  | root k ha hb => exact exists_shows_of_getElem? hAll hAll' ha hb
  | inner k _ ha hb ih =>
    obtain ⟨⟨item, contents⟩, ⟨n, hn, _, hInner⟩, ⟨n', hn', _, hInner'⟩⟩ := ih
    rw [g.contents_item hn] at ha
    rw [g'.contents_item hn'] at hb
    exact exists_shows_of_getElem? hInner hInner' ha hb

/-- Lists with the same number of items are paired when what is at the same places is. -/
theorem forall₂_of_getElem? {ids ids' : List ItemId} (hLength : ids.length = ids'.length)
    (h : ∀ (k : Nat) (a b : ItemId), ids[k]? = some a → ids'[k]? = some b → R a b) :
    List.Forall₂ R ids ids' := by
  refine List.forall₂_iff_get.2 ⟨hLength, ?_⟩
  intro k hk hk'
  exact h k _ _ (List.getElem?_eq_getElem hk) (List.getElem?_eq_getElem hk')

/-- **A tile with the same trees on it is paired**, item by item. -/
theorem Consistent.twins_of_shows (hg : g.Consistent) (hg' : g'.Consistent)
    (hTile : (g.tile? p).isSome = true) (hTile' : (g'.tile? p).isSome = true)
    {ts : List ItemTree} (hAll : g.ShowsAll (g.contents (.tile p)) ts)
    (hAll' : g'.ShowsAll (g'.contents (.tile p)) ts) :
    Twins g p (Opposite g g' p) g g' where
  unique := by
    constructor
    · intro a a' b h h'
      exact hg'.opposite_unique h.symm h'.symm
    · intro a b b' h h'
      exact hg.opposite_unique h h'
  node {a b} h := by
    obtain ⟨⟨item, contents⟩, ⟨n, hn, hItem, hInner⟩, ⟨n', hn', hItem', hInner'⟩⟩ :=
      h.shows hAll hAll'
    rw [hn, hn']
    refine .some ⟨hItem'.trans hItem.symm, ?_, ?_⟩
    · -- Links name the holders in whose lists the two are.
      have hLinks : ∀ {holder holder'}, a ∈ g.contents holder → b ∈ g'.contents holder' →
          n.holder = some holder ∧ n'.holder = some holder' := by
        intro holder holder' ha hb
        obtain ⟨m, hm, hLink⟩ := hg.linked holder a ha
        obtain ⟨m', hm', hLink'⟩ := hg'.linked holder' b hb
        obtain rfl := Option.some_inj.1 (hn.symm.trans hm)
        obtain rfl := Option.some_inj.1 (hn'.symm.trans hm')
        exact ⟨hLink, hLink'⟩
      cases h with
      | root k ha hb =>
        obtain ⟨hLink, hLink'⟩ := hLinks (List.mem_of_getElem? ha) (List.mem_of_getElem? hb)
        rw [hLink, hLink']
        exact .some .tile
      | inner k h ha hb =>
        obtain ⟨hLink, hLink'⟩ := hLinks (List.mem_of_getElem? ha) (List.mem_of_getElem? hb)
        rw [hLink, hLink']
        exact .some (.item h)
    · -- What lies in them is paired by its place in the two lists.
      refine forall₂_of_getElem? (hInner.length_eq.trans hInner'.length_eq.symm) ?_
      intro k x y hx hy
      rw [← g.contents_item hn] at hx
      rw [← g'.contents_item hn'] at hy
      exact .inner k h hx hy
  numbered {a b} h := by
    obtain ⟨t, hShows, hShows'⟩ := h.shows hAll hAll'
    obtain ⟨n, hn⟩ := Option.isSome_iff_exists.1 hShows.isSome_node?
    obtain ⟨n', hn'⟩ := Option.isSome_iff_exists.1 hShows'.isSome_node?
    exact ⟨hg.numbered a n hn, hg'.numbered b n' hn'⟩
  free j := ⟨hg.node?_eq_none, hg'.node?_eq_none⟩
  isSome_tile? := ⟨hTile, hTile'⟩
  contents_tile := by
    refine forall₂_of_getElem? (hAll.length_eq.trans hAll'.length_eq.symm) ?_
    intro k a b ha hb
    exact .root k ha hb
  belongs {a b} h := by
    -- From an item on the tile inward, each pair lies in the region around the tile.
    induction h with
    | root k ha _ => exact .inr ⟨_, List.mem_of_getElem? ha, .refl⟩
    | inner k _ ha _ ih =>
      exact (hg.region_around _).inward _ _ (List.mem_of_getElem? ha) ih
  spared := ⟨fun _ _ => rfl, fun _ _ => rfl, Nat.le_refl _⟩

end Graph

end Homestead
