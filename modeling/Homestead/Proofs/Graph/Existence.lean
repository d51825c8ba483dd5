/-
  Homestead.Proofs.Graph.Existence
  ────────────────────────────────
  **ITEMS AND TILES THAT GO OUT OF EXISTENCE.**

  An item stays when somebody holds on to it, when it lies on a tile, or
  when it lies in an item that stays.  So what lies in an item that stays
  stays too, and an item that goes takes no entry of a list with it.

  Main results:
    * `Consistent.retain` — the items that stay are consistent;
    * `Consistent.dropTile` — links to a tile that goes are dead.
-/
import Homestead.Proofs.Graph.Steps

namespace Homestead

namespace Graph

variable {g : Graph}

/-! ## §1. Items. -/

/-- The walk for what keeps an item is not cut off. -/
theorem Consistent.isKeptWithin_of (hg : g.Consistent) (handles : Std.TreeSet ItemId)
    {depth : ItemId → Nat}
    (hDepth : ∀ inner outer, g.Lies inner outer → depth outer < depth inner) {s steps : Nat}
    {id : ItemId} (hSteps : depth id < steps) (h : g.isKeptWithin handles s id = true) :
    g.isKeptWithin handles steps id = true := by
  induction steps generalizing s id with
  | zero => cases hSteps
  | succ steps ih =>
    rw [isKeptWithin]
    by_cases hHandle : handles.contains id = true
    · rw [hHandle]
      rfl
    · -- Without a handle an item stays only if its holder does.
      cases s with
      | zero => exact absurd h hHandle
      | succ s =>
        rw [isKeptWithin] at h
        rw [Bool.eq_false_iff.2 hHandle, Bool.false_or] at h ⊢
        cases hParent : g.parent? id with
        | none =>
          rw [hParent] at h
          cases h
        | some holder =>
          cases holder with
          | tile p => rfl
          | item c =>
            rw [hParent] at h
            have hLess := hDepth id c (hg.parent?_item.1 hParent)
            exact ih (by omega) h

/-- The items that stay. -/
def Stays (g : Graph) (handles : List ItemId) (id : ItemId) : Prop :=
  g.isKeptWithin (Std.TreeSet.ofList handles) g.size id = true

/-- The items that are kept are found as before, and the others are not found. -/
theorem node?_retain (handles : List ItemId) (id : ItemId) :
    (g.retain handles).node? id
      = (g.node? id).filter fun _ =>
          g.isKeptWithin (Std.TreeSet.ofList handles) g.size id := by
  rw [retain, node?]
  show (g.nodes.filter _)[id]? = _
  rw [Std.TreeMap.getElem?_filter']
  rfl

/-- An item is kept exactly if it stays. -/
theorem node?_retain_eq_some {handles : List ItemId} {id : ItemId} {n : Node} :
    (g.retain handles).node? id = some n ↔ g.node? id = some n ∧ g.Stays handles id := by
  rw [node?_retain, Option.filter_eq_some_iff]
  rfl

/-- **What lies in something that stays stays.** -/
theorem Consistent.stays_of_mem (hg : g.Consistent) {handles : List ItemId} {h : Holder}
    {id : ItemId} (hMem : id ∈ g.contents h)
    (hHolder : ∀ c, h = .item c → g.Stays handles c) : g.Stays handles id := by
  obtain ⟨depth, hDepth, hSize⟩ := hg.exists_depth
  obtain ⟨n, hn, _⟩ := hg.linked h id hMem
  have hBelow := hSize id (by rw [hn]; rfl)
  -- The walk has one step at least, and takes it to the holder.
  obtain ⟨k, hk⟩ := Nat.exists_eq_add_of_lt (Nat.zero_lt_of_lt hBelow)
  rw [Nat.zero_add] at hk
  rw [Stays, hk, isKeptWithin, hg.mem_contents_iff.1 hMem]
  cases h with
  | tile p => exact Bool.or_true _
  | item c =>
    have hLess := hDepth id c hMem
    have hOuter : g.isKeptWithin (Std.TreeSet.ofList handles) g.size c = true := hHolder c rfl
    have hStays := hg.isKeptWithin_of _ hDepth (show depth c < k by omega) hOuter
    show (_ || g.isKeptWithin _ k c) = true
    rw [hStays]
    exact Bool.or_true _

/-- A holder that is kept was there and stays. -/
theorem isLive_retain {handles : List ItemId} {h : Holder}
    (hLive : (g.retain handles).isLive h = true) :
    g.isLive h = true ∧ ∀ c, h = .item c → g.Stays handles c := by
  cases h with
  | tile p => exact ⟨hLive, fun c hc => by cases hc⟩
  | item c =>
    obtain ⟨n, hn⟩ := Option.isSome_iff_exists.1
      (show ((g.retain handles).node? c).isSome = true from hLive)
    -- What is found afterwards is what was there before and stays.
    rw [node?_retain_eq_some] at hn
    refine ⟨?_, ?_⟩
    · show (g.node? c).isSome = true
      rw [hn.1]
      rfl
    · intro c' hc'
      cases hc'
      exact hn.2

/-- A holder that is kept holds what it held. -/
theorem contents_retain {handles : List ItemId} {h : Holder}
    (hLive : (g.retain handles).isLive h = true) :
    (g.retain handles).contents h = g.contents h := by
  cases h with
  | tile p => rfl
  | item c =>
    obtain ⟨n, hn⟩ := Option.isSome_iff_exists.1
      (show ((g.retain handles).node? c).isSome = true from hLive)
    rw [contents_item _ hn, contents_item _ (node?_retain_eq_some.1 hn).1]

/-- **The items that stay are consistent.** -/
theorem Consistent.retain (hg : g.Consistent) (handles : List ItemId) :
    (g.retain handles).Consistent := by
  have hLists : ∀ h, ((g.retain handles).contents h).Sublist (g.contents h) := by
    intro h
    -- A holder is as it was, or gone with its list.
    by_cases hLive : (g.retain handles).isLive h = true
    · rw [contents_retain hLive]
    · have hNil : (g.retain handles).contents h = [] := by
        refine List.eq_nil_iff_forall_not_mem.2 ?_
        intro id hMem
        exact hLive ((g.retain handles).isLive_of_mem_contents hMem)
      rw [hNil]
      exact List.nil_sublist _
  refine hg.of_loosened ⟨hLists, ?node, fun _ hp => hp, Nat.le_refl _⟩ ?_ ?_
  case node =>
    intro id n hn
    exact ⟨n, (node?_retain_eq_some.1 hn).1, fun _ hLink => hLink, fun _ => rfl⟩
  · -- What a holder that stays holds is held, and stays.
    intro h id hMem
    have hOld := (hLists h).subset hMem
    have hLive := (g.retain handles).isLive_of_mem_contents hMem
    obtain ⟨n, hn, hLink⟩ := hg.linked h id hOld
    have hStays := hg.stays_of_mem hOld (isLive_retain hLive).2
    exact ⟨n, node?_retain_eq_some.2 ⟨hn, hStays⟩, hLink⟩
  · intro id n h hn hLink hLive
    rw [contents_retain hLive]
    exact hg.listed id n h (node?_retain_eq_some.1 hn).1 hLink (isLive_retain hLive).1

/-! ## §2. Tiles. -/

/-- The graph without a tile.  Links to the tile name nothing any more: they get a number that no
node will have. -/
def dropTile (g : Graph) (p : Position) : Graph where
  nodes := g.nodes.map fun _ n =>
    if n.holder = some (.tile p) then { n with holder := some (.item g.next) } else n
  tiles := g.tiles.erase p
  next := g.next + 1

/-- The items on a tile that is dropped lose their holder. -/
theorem node?_dropTile (p : Position) (id : ItemId) :
    (g.dropTile p).node? id = (g.node? id).map fun n =>
      if n.holder = some (.tile p) then { n with holder := some (.item g.next) } else n := by
  show (g.nodes.map _)[id]? = _
  rw [Std.TreeMap.getElem?_map]
  rfl

/-- One tile is dropped. -/
theorem tile?_dropTile (p q : Position) :
    (g.dropTile p).tile? q = if q = p then none else g.tile? q := by
  show (g.tiles.erase p)[q]? = _
  rw [Std.TreeMap.getElem?_erase]
  by_cases h : q = p
  · rw [if_pos h, if_pos (by rw [h]; exact Std.ReflCmp.compare_self)]
  · rw [if_neg h, if_neg]
    · rfl
    · exact fun h' => h (Std.LawfulEqCmp.eq_of_compare h').symm

/-- A tile that is dropped holds nothing. -/
theorem contents_dropTile (p : Position) (h : Holder) :
    (g.dropTile p).contents h = if h = .tile p then [] else g.contents h := by
  cases h with
  | tile q =>
    rw [contents, tile?_dropTile, contents]
    by_cases hq : q = p <;> simp [hq]
  | item c =>
    rw [contents, node?_dropTile, if_neg (by simp), contents]
    cases g.node? c with
    | none => rfl
    | some n =>
      show (if _ then _ else _ : Node).contents = n.contents
      split_ifs <;> rfl

/-- A node as it was before a tile went, and what has become of its link. -/
theorem node?_of_dropTile {p : Position} {id : ItemId} {m : Node}
    (hm : (g.dropTile p).node? id = some m) :
    ∃ n, g.node? id = some n ∧ m.item = n.item ∧ m.contents = n.contents
      ∧ (n.holder = some (.tile p) ∧ m.holder = some (.item g.next)
        ∨ n.holder ≠ some (.tile p) ∧ m.holder = n.holder) := by
  rw [node?_dropTile] at hm
  obtain ⟨n, hn, rfl⟩ := Option.map_eq_some_iff.1 hm
  refine ⟨n, hn, ?_⟩
  split_ifs with hTile
  · exact ⟨rfl, rfl, .inl ⟨hTile, rfl⟩⟩
  · exact ⟨rfl, rfl, .inr ⟨hTile, rfl⟩⟩

/-- **Links to a tile that goes are dead**, and all else is as before. -/
theorem Consistent.dropTile (hg : g.Consistent) (p : Position) : (g.dropTile p).Consistent := by
  constructor
  case linked =>
    intro h id hMem
    rw [contents_dropTile] at hMem
    split_ifs at hMem with hh
    · cases hMem
    · obtain ⟨n, hn, hLink⟩ := hg.linked h id hMem
      -- What stands in another list is linked elsewhere, so its link is not among those that die.
      have hne : n.holder ≠ some (.tile p) := by
        rw [hLink]
        exact fun h' => hh (Option.some_inj.1 h')
      exact ⟨n, by rw [node?_dropTile, hn, Option.map_some, if_neg hne], hLink⟩
  case listed =>
    intro id m h hm hLink hLive
    obtain ⟨n, hn, _, _, ⟨_, hDead⟩ | ⟨hne, hSame⟩⟩ := node?_of_dropTile hm
    · -- The number of the dead link belongs to no node.
      rw [hDead] at hLink
      obtain rfl := Option.some_inj.1 hLink
      obtain ⟨m', hm'⟩ := Option.isSome_iff_exists.1
        (show ((g.dropTile p).node? g.next).isSome = true from hLive)
      obtain ⟨n', hn', _⟩ := node?_of_dropTile hm'
      exact absurd (hg.numbered _ n' hn') (Nat.lt_irrefl _)
    · rw [hSame] at hLink
      have hOther : h ≠ .tile p := by
        rintro rfl
        exact hne hLink
      rw [contents_dropTile, if_neg hOther]
      refine hg.listed id n h hn hLink ?_
      cases h with
      | tile q =>
        have hq : q ≠ p := fun hq => hOther (by rw [hq])
        rwa [isLive, tile?_dropTile, if_neg hq] at hLive
      | item c => rwa [isLive, node?_dropTile, Option.isSome_map] at hLive
  case nodup =>
    intro h
    rw [contents_dropTile]
    split_ifs
    · exact List.nodup_nil
    · exact hg.nodup h
  case holds =>
    intro id m hm hNonempty
    obtain ⟨n, hn, hItem, hList, _⟩ := node?_of_dropTile hm
    rw [hList] at hNonempty
    rw [hItem]
    exact hg.holds id n hn hNonempty
  case numbered =>
    intro id m hm
    obtain ⟨n, hn, _⟩ := node?_of_dropTile hm
    -- The dead number is passed over, so the numbers of nodes stay below the next one.
    exact Nat.lt_succ_of_lt (hg.numbered id n hn)
  case linkNumbered =>
    intro id m c hm hLink
    obtain ⟨n, hn, _, _, ⟨_, hDead⟩ | ⟨_, hSame⟩⟩ := node?_of_dropTile hm
    · rw [hDead] at hLink
      obtain rfl := Holder.item.inj (Option.some_inj.1 hLink)
      exact Nat.lt_succ_self _
    · rw [hSame] at hLink
      exact Nat.lt_succ_of_lt (hg.linkNumbered id n c hn hLink)
  case linkTiled =>
    intro id m q hm hLink
    obtain ⟨n, hn, _, _, ⟨_, hDead⟩ | ⟨hne, hSame⟩⟩ := node?_of_dropTile hm
    · rw [hDead] at hLink
      cases hLink
    · rw [hSame] at hLink
      have hq : q ≠ p := by
        rintro rfl
        exact hne hLink
      rw [tile?_dropTile, if_neg hq]
      exact hg.linkTiled id n q hn hLink
  case ranked =>
    obtain ⟨rank, hRank⟩ := hg.ranked
    refine ⟨rank, ?_⟩
    intro inner outer hLies
    -- Containers keep their lists, and with them the rank.
    rw [Lies, contents_dropTile, if_neg (by simp)] at hLies
    exact hRank inner outer hLies

end Graph

end Homestead
