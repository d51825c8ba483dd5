/-
  Homestead.Proofs.Record.Raised
  ──────────────────────────────
  **ITEMS MADE ONE BY ONE IN A GRAPH.**

  A record can be brought into a graph item by item: first the item itself,
  which lies nowhere; then, one after another, the items of its contents,
  each put into it when it is complete.  The item counts how many are still
  to come.  This goes as building the tree first and making it at once
  does: what a record gives, what is counted and what fails are the same.
  No item is ever refused by the one that it is put into, and in the end
  nothing is still to come.

  Main results:
    * `Fed.trans` — a container that is fed, step by step;
    * `raises`, `raisesAll` — item by item is as at once;
    * `raise_prunes` — what is kept of a record is made, item by item.
-/
import Homestead.Proofs.Record.Filling
import Homestead.Proofs.Record.Pruned
import Homestead.Proofs.Record.RoundTrip

namespace Homestead

open Homestead.Graph

namespace Record

variable {c : Catalog}

/-! ## §1. Item by item. -/

mutual

/-- Brings a record into a graph item by item, and counts. -/
def raise (c : Catalog) :
    Record → Graph → Tally → Except DecodeError (Option ItemId) × Tally × Graph
  | mk typeId known updates children, g, tally =>
    match newItem? c (mk typeId known updates none) with
    | none => (.ok none, tally + .letGo (total (mk typeId known updates children)), g)
    | some item =>
      let (id, g) := g.create (.node item [])
      match children with
      | none => (.ok (some id), tally + .made 1, g)
      | some children =>
        if !g.isContainer id then (.error (.mismatch typeId .holdsNothing), tally + .made 1, g)
        else
          let pending := UInt32.ofNat children.length
          let g := g.update id fun i => { i with variant := i.variant.setPending pending }
          let (result, tally, g) := raiseAll c id children g (tally + .made 1)
          (result.map fun _ => some id, tally, g)

/-- Brings records into a container one after another, up to the first failure. -/
def raiseAll (c : Catalog) (container : ItemId) :
    List Record → Graph → Tally → Except DecodeError Unit × Tally × Graph
  | [], g, tally => (.ok (), tally, g)
  | r :: rs, g, tally =>
    match raise c r g tally with
    | (.error e, tally, g) => (.error e, tally, g)
    | (.ok none, tally, g) => raiseAll c container rs (countDown g container) tally
    | (.ok (some id), tally, g) =>
      match g.add (.item container) id with
      | .error e => (.error (.graph e), tally, g)
      | .ok g => raiseAll c container rs (countDown g container) tally

end

/-- An item is brought in item by item as at once: what a record gives is the same. -/
structure Raises (g : Graph) (tally : Tally) (built : Except DecodeError (Option ItemTree) × Tally)
    (raised : Except DecodeError (Option ItemId) × Tally × Graph) : Prop where
  /-- The same is counted. -/
  counted : raised.2.1 = tally + built.2
  /-- The same failures. -/
  failed : ∀ e, built.1 = .error e → raised.1 = .error e
  /-- The same records are passed over. -/
  passed : built.1 = .ok none → raised.1 = .ok none ∧ raised.2.2 = g
  /-- The same trees are made. -/
  made : ∀ t, built.1 = .ok (some t) → ∃ id, raised.1 = .ok (some id) ∧ Made g raised.2.2 id t

end Record

namespace Graph

/-! ## §2. A container that is fed. -/

/-- `g'` is `g` with items that show trees behind those that a container holds, and so many items
still to come to it. -/
structure Fed (g g' : Graph) (id : ItemId) (item : Item) (pending : UInt32) (ids : List ItemId)
    (ts : List ItemTree) : Prop where
  /-- The container has grown. -/
  grown : Grown g g' id ids
  /-- What has come shows the trees. -/
  shows : g'.ShowsAll ids ts
  /-- The container counts what is still to come. -/
  item : g'.item? id = some { item with variant := item.variant.setPending pending }

variable {g g' g'' : Graph} {id : ItemId} {item : Item} {k k' : UInt32} {ids ids' : List ItemId}
  {ts ts' : List ItemTree}

/-- A container that is fed twice is fed by both. -/
theorem Fed.trans (h : Fed g g' id item k ids ts) (hg : g.Consistent)
    (h' : Fed g' g'' id { item with variant := item.variant.setPending k } k' ids' ts') :
    Fed g g'' id item k' (ids ++ ids') (ts ++ ts') where
  grown := h.grown.trans h'.grown
  shows := h.grown.shows_append hg h'.grown h.shows h'.shows
  item := by rw [h'.item, Variant.setPending_setPending]

/-- Containers count what is still to come. -/
theorem exists_pending (h : item.isContainer = true) : ∃ k, item.variant.pending = some k := by
  unfold Item.isContainer at h
  cases hVariant : item.variant with
  | container k => exact ⟨k, rfl⟩
  | depot k number => exact ⟨k, rfl⟩
  | _ =>
    rw [hVariant] at h
    cases h

theorem pending_setPending (h : item.isContainer = true) (k : UInt32) :
    (item.variant.setPending k).pending = some k := by
  unfold Item.isContainer at h
  cases hVariant : item.variant <;> rw [hVariant] at h <;> first | rfl | cases h

/-- Setting the count of missing entries to what it is does nothing. -/
theorem setPending_of_pending (h : item.variant.pending = some k) :
    item.variant.setPending k = item.variant := by
  cases hVariant : item.variant <;> rw [hVariant] at h <;> cases h <;> rfl

/-- The item that a fed container has become. -/
theorem Fed.exists_node (h : Fed g g' id item k ids ts) (hHolds : item.isContainer = true) :
    ∃ n, g'.node? id = some n ∧ n.item = { item with variant := item.variant.setPending k }
      ∧ n.item.isContainer = true ∧ n.item.variant.pending = some k := by
  obtain ⟨n, hn, hItem⟩ := Option.map_eq_some_iff.1 h.item
  refine ⟨n, hn, hItem, ?_, ?_⟩
  · rw [hItem]
    exact (Variant.isContainer_setPending _ k).trans hHolds
  · rw [hItem]
    exact pending_setPending hHolds k

section Step

variable {n : Node}

/-- A container that is fed nothing stays as it is. -/
theorem fed_refl (hg : g.Consistent) (hn : g.node? id = some n)
    (hk : n.item.variant.pending = some k) : Fed g g id n.item k [] [] where
  grown := by
    refine ⟨hg, rfl, Nat.le_refl _, fun _ _ _ => rfl, fun _ h => absurd h List.not_mem_nil, n, k,
      hn, ?_⟩
    rw [setPending_of_pending hk, List.append_nil, hn]
  shows := trivial
  item := by rw [setPending_of_pending hk, item?, hn, Option.map_some]

/-- Saying how many items are to come. -/
theorem fed_setPending (hg : g.Consistent) (hn : g.node? id = some n) (k : UInt32) :
    Fed g (g.update id fun i => { i with variant := i.variant.setPending k }) id n.item k [] [] where
  grown := hg.grown_setPending hn fun _ => k
  shows := trivial
  item := by
    rw [item?, node?_update, if_pos rfl, hn]
    rfl

/-- One item less is to come. -/
theorem fed_countDown (hg : g.Consistent) (hn : g.node? id = some n)
    (hk : n.item.variant.pending = some k) :
    Fed g (Record.countDown g id) id n.item (if k = 0 then 0 else k - 1) [] [] where
  grown := hg.grown_countDown hn
  shows := trivial
  item := by
    rw [Record.countDown, item?, node?_update, if_pos rfl, hn]
    dsimp only [Option.map_some]
    rw [hk]

/-- An item that has been made comes to the container. -/
theorem Made.fed {new : ItemId} {t : ItemTree} (h : Made g g' new t) (hg : g.Consistent)
    (hn : g.node? id = some n) (hHolds : n.item.isContainer = true)
    (hk : n.item.variant.pending = some k) :
    ∃ g'', g'.add (.item id) new = .ok g'' ∧ Fed g g'' id n.item k [new] [t] := by
  obtain ⟨g'', hAdd, hGrown, hShows, hItem⟩ := h.put hg hn hHolds
  refine ⟨g'', hAdd, hGrown, hShows, ?_⟩
  rw [hItem, setPending_of_pending hk]

end Step

/-- A new item that has been fed all that it was to hold. -/
theorem Made.fill (h : Made g g' id (.node item [])) (hFilled : item.Filled)
    (hHolds : item.isContainer = true) (hFed : Fed g' g'' id item 0 ids ts) :
    Made g g'' id (.node item ts) := by
  obtain ⟨hNew, n, hn, hFree⟩ := h.root
  obtain ⟨m, hm, hItem, hEmpty⟩ := h.shows
  obtain rfl := Option.some_inj.1 (hn.symm.trans hm)
  -- A new item holds nothing before it is fed.
  have hNone : n.contents = [] := List.length_eq_zero_iff.1 hEmpty.length_eq
  obtain ⟨n', k, hn', hm'⟩ := hFed.grown.node
  obtain rfl := Option.some_inj.1 (hn.symm.trans hn')
  constructor
  case consistent => exact hFed.grown.consistent
  case tiles => rw [hFed.grown.tiles, h.tiles]
  case next_le => exact Nat.le_trans h.next_le hFed.grown.next_le
  case old =>
    intro j hj
    rw [hFed.grown.old j (Nat.lt_of_lt_of_le hj h.next_le) (Nat.ne_of_lt (Nat.lt_of_lt_of_le hj hNew)),
      h.old j hj]
  case root => exact ⟨hNew, _, hm', hFree⟩
  case shows =>
    refine ⟨_, hm', ?_, ?_⟩
    · have hNow := hFed.item
      rw [item?, hm'] at hNow
      obtain ⟨k₀, hk₀⟩ := exists_pending hHolds
      rw [hFilled k₀ hk₀] at hk₀
      rw [setPending_of_pending hk₀] at hNow
      exact Option.some_inj.1 hNow
    · show ShowsAll g'' (n.contents ++ ids) ts
      rw [hNone]
      exact hFed.shows

end Graph

namespace Record

variable {c : Catalog} {g g' : Graph} {id : ItemId} {item : Item} {k : UInt32}
  {ids : List ItemId}

/-! ## §3. Item by item is as at once. -/

/-- Records are brought into a container item by item as at once. -/
structure RaisesAll (g : Graph) (id : ItemId) (item : Item) (tally : Tally)
    (built : Except DecodeError (List ItemTree) × Tally)
    (raised : Except DecodeError Unit × Tally × Graph) : Prop where
  /-- The same is counted. -/
  counted : raised.2.1 = tally + built.2
  /-- The same failures. -/
  failed : ∀ e, built.1 = .error e → raised.1 = .error e
  /-- The same trees come to the container, and then nothing is still to come. -/
  fed : ∀ ts, built.1 = .ok ts → raised.1 = .ok () ∧ ∃ ids, Fed g raised.2.2 id item 0 ids ts

/-- What comes first, and then the rest. -/
theorem RaisesAll.after {tally more : Tally} {first : List ItemTree}
    {built : Except DecodeError (List ItemTree) × Tally}
    {raised : Except DecodeError Unit × Tally × Graph} (hg : g.Consistent)
    (hFirst : Fed g g' id item k ids first)
    (h : RaisesAll g' id { item with variant := item.variant.setPending k } (tally + more) built
      raised) :
    RaisesAll g id item tally (built.1.map (first ++ ·), more + built.2) raised where
  counted := by rw [h.counted, add_assoc]
  failed e he := by
    refine h.failed e ?_
    revert he
    cases built.1 with
    | error e' => exact fun he => he
    | ok ts => exact fun he => by cases he
  -- The first trees are fed already, and the others follow them.
  fed ts hts := by
    obtain ⟨ts', hts', rfl⟩ : ∃ ts', built.1 = .ok ts' ∧ ts = first ++ ts' := by
      revert hts
      cases built.1 with
      | error e => exact fun hts => by cases hts
      | ok ts' => exact fun hts => ⟨ts', rfl, (Except.ok.inj hts).symm⟩
    obtain ⟨hOk, ids', hFed⟩ := h.fed ts' hts'
    exact ⟨hOk, ids ++ ids', hFirst.trans hg hFed⟩

/-- A new item, and then what it holds. -/
theorem Raises.node {tally : Tally} (hMade : Made g g' id (.node item [])) (hFilled : item.Filled)
    (hHolds : item.isContainer = true) {built : Except DecodeError (List ItemTree) × Tally}
    {raised : Except DecodeError Unit × Tally × Graph} (h : RaisesAll g' id item tally built raised) :
    Raises g tally (built.1.map fun trees => some (.node item trees), built.2)
      (raised.1.map fun _ => some id, raised.2) := by
  obtain ⟨built, more⟩ := built
  obtain ⟨result, tally', g''⟩ := raised
  obtain rfl : tally' = tally + more := h.counted
  -- Feeding goes the way of what is built at once.
  cases built with
  | error e =>
    obtain rfl : result = .error e := h.failed e rfl
    constructor
    case counted => rfl
    case failed =>
      intro e' he
      cases he
      rfl
    case passed => exact fun h => by cases h
    case made => exact fun _ ht => by cases ht
  | ok ts =>
    obtain ⟨hOk, ids, hFed⟩ := h.fed ts rfl
    obtain rfl : result = .ok () := hOk
    constructor
    case counted => rfl
    case failed => exact fun _ he => by cases he
    case passed => exact fun h => by cases h
    case made =>
      intro t ht
      cases ht
      exact ⟨id, rfl, hMade.fill hFilled hHolds hFed⟩

/-- Counting down leaves one missing entry fewer. -/
theorem toNat_countDown {n : Nat} (h : k.toNat ≤ n + 1) :
    (if k = 0 then 0 else k - 1).toNat ≤ n := by
  split_ifs with hZero
  · exact Nat.zero_le n
  · have hPositive : k.toNat ≠ 0 := fun h => hZero (UInt32.toNat_inj.1 h)
    have hOne : (1 : UInt32) ≤ k := UInt32.le_iff_toNat_le.2 (Nat.one_le_iff_ne_zero.2 hPositive)
    rw [UInt32.toNat_sub_of_le k 1 hOne]
    exact Nat.sub_le_of_le_add h

variable (c)

mutual

/-- **Bringing in a record item by item** gives what building it gives. -/
theorem raises : ∀ (r : Record) {g : Graph} (tally : Tally), g.Consistent →
    Raises g tally (r.build c) (raise c r g tally)
  | mk typeId known us children, g, tally, hg => by
    rw [build, raise]
    cases hNew : newItem? c (mk typeId known us none) with
    | none =>
      constructor
      case counted => rfl
      case failed => exact fun _ he => by cases he
      case passed => exact fun _ => ⟨rfl, rfl⟩
      case made => exact fun _ ht => by cases ht
    | some item =>
      -- The item is made empty, and its contents are put in later.
      have hAlone : (ItemTree.node item []).Every ItemTree.Hollow :=
        ⟨fun hNonempty => absurd rfl hNonempty, trivial⟩
      have hMade := (planted_create hg hAlone).made
      obtain ⟨n, hn, hItem, _⟩ := hMade.shows
      dsimp only
      cases children with
      | none =>
        constructor
        case counted => rfl
        case failed => exact fun _ he => by cases he
        case passed => exact fun h => by cases h
        case made =>
          intro t ht
          cases ht
          exact ⟨_, rfl, hMade⟩
      | some rs =>
        -- Whether the item holds contents is asked of the graph; it is what the new item says.
        have hContainer : (g.create (.node item [])).2.isContainer (g.create (.node item [])).1
            = item.isContainer := by
          rw [isContainer, item?, hn, ← hItem]
          rfl
        dsimp only
        rw [hContainer]
        cases hHolds : item.isContainer with
        | false =>
          constructor
          case counted => rfl
          case failed =>
            intro e he
            cases he
            rfl
          case passed => exact fun h => by cases h
          case made => exact fun _ ht => by cases ht
        | true =>
          -- The number of contents may be cut to 32 bits, but it is never greater than theirs.
          have hPending := fed_setPending hMade.consistent hn (UInt32.ofNat rs.length)
          obtain ⟨n', hn', hItem', hHolds', hk⟩ := hPending.exists_node (hItem ▸ hHolds)
          have hLe : (UInt32.ofNat rs.length).toNat ≤ rs.length := by
            rw [UInt32.toNat_ofNat']
            exact Nat.mod_le _ _
          have hAll := raisesAll rs (tally + .made 1) hPending.grown.consistent hn' hHolds' hk hLe
          rw [hItem'] at hAll
          have hWhole := RaisesAll.after hMade.consistent hPending hAll
          rw [hItem] at hWhole
          have hNode := Raises.node hMade (filled_newItem? hNew) hHolds hWhole
          revert hNode
          cases (buildAll c rs).1 <;> exact fun hNode => hNode

/-- **Bringing records into a container item by item** gives what building them gives; as many as
there are records may be to come to it. -/
theorem raisesAll : ∀ (rs : List Record) {g : Graph} {id : ItemId} {n : Node} {k : UInt32}
    (tally : Tally), g.Consistent → g.node? id = some n → n.item.isContainer = true →
    n.item.variant.pending = some k → k.toNat ≤ rs.length →
    RaisesAll g id n.item tally (buildAll c rs) (raiseAll c id rs g tally)
  | [], g, id, n, k, tally, hg, hn, hHolds, hk, hLe => by
    -- No more records are left than items were announced, so none is pending.
    obtain rfl : k = 0 := UInt32.toNat_inj.1 (Nat.le_zero.1 hLe)
    constructor
    case counted => exact (add_zero tally).symm
    case failed => exact fun _ he => by cases he
    case fed =>
      intro ts hts
      cases hts
      exact ⟨rfl, [], fed_refl hg hn hk⟩
  | r :: rs, g, id, n, k, tally, hg, hn, hHolds, hk, hLe => by
    have hHead := raises r tally hg
    rw [buildAll, raiseAll]
    revert hHead
    obtain ⟨built, more⟩ := r.build c
    obtain ⟨raised, tally₁, g₁⟩ := raise c r g tally
    intro hHead
    obtain rfl : tally₁ = tally + more := hHead.counted
    -- Once the item, if there is one, has come, one less is to come.
    have hNext : ∀ {g₂ : Graph} {o : Option ItemTree} {ids : List ItemId},
        Fed g g₂ id n.item k ids o.toList →
        RaisesAll g id n.item tally ((buildAll c rs).1.map (o.toList ++ ·), more + (buildAll c rs).2)
          (raiseAll c id rs (countDown g₂ id) (tally + more)) := by
      intro g₂ o ids hFed
      obtain ⟨n₂, hn₂, hItem₂, hHolds₂, hk₂⟩ := hFed.exists_node hHolds
      -- The count goes down in a graph that is consistent again after the item has come.
      have hCount := fed_countDown hFed.grown.consistent hn₂ hk₂
      obtain ⟨n₃, hn₃, hItem₃, hHolds₃, hk₃⟩ := hCount.exists_node hHolds₂
      have hRest := raisesAll rs (tally + more) hCount.grown.consistent hn₃ hHolds₃ hk₃
        (toNat_countDown hLe)
      rw [hItem₂] at hCount
      have hBoth := hFed.trans hg hCount
      rw [List.append_nil, List.append_nil] at hBoth
      refine RaisesAll.after hg hBoth ?_
      rwa [hItem₃, hItem₂, Variant.setPending_setPending] at hRest
    cases built with
    | error e =>
      -- An error ends the records that follow as well, and is passed up.
      obtain rfl : raised = .error e := hHead.failed e rfl
      constructor
      case counted => rfl
      case failed =>
        intro e' he
        cases he
        rfl
      case fed => exact fun _ hts => by cases hts
    | ok o =>
      cases o with
      | none =>
        obtain ⟨hRaised, hSame⟩ := hHead.passed rfl
        obtain rfl : raised = .ok none := hRaised
        obtain rfl : g₁ = g := hSame
        exact hNext (fed_refl hg hn hk)
      | some t =>
        obtain ⟨new, hRaised, hMade⟩ := hHead.made t rfl
        obtain rfl : raised = .ok (some new) := hRaised
        obtain ⟨g₂, hAdd, hFed⟩ := hMade.fed hg hn hHolds hk
        dsimp only
        rw [hAdd]
        exact hNext hFed

end

/-! ## §4. What is kept is made. -/

/-- What a record comes to when it is brought into a graph item by item. -/
structure Prunes (c : Catalog) (r : Record) (g : Graph) (tally : Tally)
    (raised : Except DecodeError (Option ItemId) × Tally × Graph) : Prop where
  /-- It fails where something that is kept has contents and is of a type that holds nothing, and
  nowhere else. -/
  fails_iff : (∃ e, raised.1 = .error e) ↔
    ∃ kept, pruned? c r = some kept ∧ ∃ part ∈ kept.parts, part.Misfit c
  /-- The failure is a mismatch of such a part. -/
  mismatch : ∀ e, raised.1 = .error e → ∃ kept, pruned? c r = some kept
    ∧ ∃ part ∈ kept.parts, part.Misfit c ∧ e = .mismatch part.typeId .holdsNothing
  /-- Otherwise every item of the record is counted once. -/
  counted : ∀ o, raised.1 = .ok o →
    raised.2.1.created + raised.2.1.discarded = tally.created + tally.discarded + r.total
  /-- Nothing is made if nothing is kept. -/
  nothing : raised.1 = .ok none →
    pruned? c r = none ∧ raised.2.1.created = tally.created ∧ raised.2.2 = g
  /-- What is kept is made, in the same places; nothing is still to come to any of it. -/
  made : ∀ id, raised.1 = .ok (some id) → ∃ kept t, pruned? c r = some kept
    ∧ Made g raised.2.2 id t ∧ Mirrors c t kept ∧ raised.2.1.created = tally.created + t.size
    ∧ t.Every fun i _ => i.Filled

/-- **Of every record just what the catalog keeps is made**, and only misfits fail: no item is
refused by the container that it is put into.  The tree that is built at once is the same. -/
theorem raise_prunes (r : Record) {g : Graph} (hg : g.Consistent) (tally : Tally) :
    Raises g tally (r.build c) (raise c r g tally) ∧ Prunes c r g tally (raise c r g tally) := by
  have hRaises := raises c r tally hg
  have hPruning := pruning_build c r
  refine ⟨hRaises, ?_⟩
  revert hRaises hPruning
  obtain ⟨built, more⟩ := r.build c
  obtain ⟨raised, tally', g'⟩ := raise c r g tally
  intro hRaises hPruning
  obtain rfl : tally' = tally + more := hRaises.counted
  -- What is raised in the graph goes the way of what is built at once, so its outcome decides.
  cases built with
  | error e =>
    obtain rfl : raised = .error e := hRaises.failed e rfl
    obtain ⟨part, hPart, hMisfit, hError⟩ := hPruning.mismatch e rfl
    obtain ⟨kept, hKept, hPart⟩ := exists_of_mem_partsAll_toList hPart
    constructor
    case fails_iff => exact ⟨fun _ => ⟨kept, hKept, part, hPart, hMisfit⟩, fun _ => ⟨e, rfl⟩⟩
    case mismatch =>
      intro e' he
      cases he
      exact ⟨kept, hKept, part, hPart, hMisfit, hError⟩
    case counted => exact fun _ h => by cases h
    case nothing => exact fun h => by cases h
    case made => exact fun _ h => by cases h
  | ok o =>
    -- What is made and what is let go add up to the items of the record.
    have hCounted : (tally + more).created + (tally + more).discarded
        = tally.created + tally.discarded + r.total := by
      have hMore : more.created + more.discarded = r.total := hPruning.counted o.toList rfl
      rw [created_add, discarded_add]
      omega
    -- A misfit among the kept parts would have made the build fail.
    have hFits : ¬ ∃ kept, pruned? c r = some kept ∧ ∃ part ∈ kept.parts, part.Misfit c := by
      rintro ⟨kept, hKept, part, hPart, hMisfit⟩
      rw [hKept] at hPruning
      obtain ⟨e, he⟩ := hPruning.strict part (List.mem_append_left _ hPart) hMisfit
      cases he
    cases o with
    | none =>
      obtain ⟨hRaised, hSame⟩ := hRaises.passed rfl
      obtain rfl : raised = .ok none := hRaised
      constructor
      case fails_iff => exact ⟨fun ⟨_, h⟩ => (by cases h), fun h => absurd h hFits⟩
      case mismatch => exact fun _ h => by cases h
      case counted => exact fun _ _ => hCounted
      case nothing =>
        refine fun _ => ⟨?_, congrArg (tally.created + ·) (hPruning.created [] rfl), hSame⟩
        -- Nothing is kept of the record either, or a tree would have come of it.
        have hMirrors := hPruning.mirrors [] rfl
        cases hKept : pruned? c r with
        | none => rfl
        | some kept =>
          rw [hKept] at hMirrors
          exact hMirrors.elim
      case made => exact fun _ h => by cases h
    | some t =>
      obtain ⟨id, hRaised, hMade⟩ := hRaises.made t rfl
      obtain rfl : raised = .ok (some id) := hRaised
      constructor
      case fails_iff => exact ⟨fun ⟨_, h⟩ => (by cases h), fun h => absurd h hFits⟩
      case mismatch => exact fun _ h => by cases h
      case counted => exact fun _ _ => hCounted
      case nothing => exact fun h => by cases h
      case made =>
        intro id' hid
        cases hid
        -- The tree mirrors what is kept of the record, so something is kept.
        have hMirrors := hPruning.mirrors [t] rfl
        have hCreated : more.created = t.size := hPruning.created [t] rfl
        cases hKept : pruned? c r with
        | none =>
          rw [hKept] at hMirrors
          exact hMirrors.elim
        | some kept =>
          rw [hKept] at hMirrors
          exact ⟨kept, t, rfl, hMade, hMirrors.1, congrArg (tally.created + ·) hCreated,
            (hPruning.filled [t] rfl).1⟩

/-- A bag that holds a record of no type, with a bag in it, and a second bag. -/
def bagWithStranger : Record :=
  mk 1 true [] (some [mk 9 false [] (some [mk 1 true [] none]), mk 1 true [] none])

/-- Of four records two are kept. -/
theorem raise_prunes_bagWithStranger :
    Graph.empty.Consistent ∧ bagWithStranger.total = 4
      ∧ (raise bagCatalog bagWithStranger .empty {}).1.toOption = some (some 0)
      ∧ (raise bagCatalog bagWithStranger .empty {}).2.1 = { created := 2, discarded := 2 }
      ∧ Raises .empty {} (bagWithStranger.build bagCatalog)
          (raise bagCatalog bagWithStranger .empty {})
      ∧ Prunes bagCatalog bagWithStranger .empty {}
          (raise bagCatalog bagWithStranger .empty {}) :=
  ⟨Graph.consistent_empty, rfl, by decide +kernel, by decide +kernel,
    raise_prunes bagCatalog bagWithStranger Graph.consistent_empty {}⟩

end Record

end Homestead
