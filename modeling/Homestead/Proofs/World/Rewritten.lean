/-
  Homestead.Proofs.World.Rewritten
  ────────────────────────────────
  **WHETHER A ROW IS WRITTEN AS IT WAS.**

  Of a tile the saved trees are written one behind the other, and where one
  ends and the next one begins can be told from the octets.  So two worlds
  write the same row for a tile just if they write the same for every one
  of its fixtures, or nothing for it.

  A fixture to which a record has come is written, and so is every fixture
  that was written when the record was.  Therefore, once the records of a
  tile have come home, its row is written as it was just if that holds of
  every fixture on its own: what the record makes of the fixture of the map
  is written like the fixture that the record was written for, and what has
  no record is not written.

  Main results:
    * `tileRow?_eq_iff` — two worlds write the same row;
    * `Returned.writtenAs` — what a fixture is written as that has come home;
    * `Returned.tileRow?_eq_iff` — the row of a tile, fixture by fixture.
-/
import Homestead.Proofs.World.Homeward

open Homestead.Stream

namespace Homestead

/-! ## §1. Lists with gaps. -/

section Gaps

variable {α β : Type} {f g : α → Option β}

/-- No more elements have an image, where each that has one has one here too. -/
theorem length_filterMap_le (l : List α) (h : ∀ a ∈ l, (g a).isSome → (f a).isSome) :
    (l.filterMap g).length ≤ (l.filterMap f).length := by
  induction l with
  | nil => exact Nat.le_refl 0
  | cons a l ih =>
    obtain ⟨hFirst, hRest⟩ := List.forall_mem_cons.1 h
    have hTail := ih hRest
    -- An element without an image on the left can only add to the right.
    cases hg : g a with
    | none =>
      rw [List.filterMap_cons_none hg]
      cases hf : f a with
      | none => rwa [List.filterMap_cons_none hf]
      | some b =>
        rw [List.filterMap_cons_some hf, List.length_cons]
        omega
    | some b =>
      obtain ⟨b', hf⟩ := Option.isSome_iff_exists.1 (hFirst (by rw [hg]; rfl))
      rw [List.filterMap_cons_some hg, List.filterMap_cons_some hf, List.length_cons,
        List.length_cons]
      omega

/-- Where one function has a value whenever the other one has, they give the same list just if they
have the same values. -/
theorem filterMap_eq_iff (l : List α) (h : ∀ a ∈ l, (g a).isSome → (f a).isSome) :
    l.filterMap f = l.filterMap g ↔ ∀ a ∈ l, f a = g a := by
  refine ⟨fun hEq => ?_, List.filterMap_congr⟩
  induction l with
  | nil => exact fun a ha => absurd ha List.not_mem_nil
  | cons a l ih =>
    obtain ⟨hFirst, hRest⟩ := List.forall_mem_cons.1 h
    cases hg : g a with
    | some b =>
      obtain ⟨b', hf⟩ := Option.isSome_iff_exists.1 (hFirst (by rw [hg]; rfl))
      rw [List.filterMap_cons_some hg, List.filterMap_cons_some hf, List.cons.injEq] at hEq
      exact List.forall_mem_cons.2 ⟨by rw [hf, hg, hEq.1], ih hRest hEq.2⟩
    | none =>
      rw [List.filterMap_cons_none hg] at hEq
      cases hf : f a with
      | none =>
        rw [List.filterMap_cons_none hf] at hEq
        exact List.forall_mem_cons.2 ⟨by rw [hf, hg], ih hRest hEq⟩
      | some b =>
        -- Then the one list is too long.
        have hLonger := length_filterMap_le l hRest
        rw [List.filterMap_cons_some hf] at hEq
        have hLengths := congrArg List.length hEq
        rw [List.length_cons] at hLengths
        omega

end Gaps

/-! ## §2. Rows. -/

namespace ItemTree

/-- Trees are written one behind the other. -/
theorem encodeAll_eq_flatMap (c : Catalog) (ts : List ItemTree) :
    encodeAll c ts = ts.flatMap (·.encode c) := by
  induction ts with
  | nil => rfl
  | cons t ts ih => rw [encodeAll, List.flatMap_cons, ih]

variable {c : Catalog} {base t u : ItemTree}

/-- Items of one type are saved both, or neither is, if they hold something both, or
neither does. -/
theorem isSaved_eq {ty : ItemType} (ht : t.item.Typed c) (hu : u.item.Typed c)
    (hType : c.get? t.item.typeId = some ty) (hSame : u.item.typeId = t.item.typeId)
    (hHolds : u.contents.isEmpty = t.contents.isEmpty) : u.isSaved c = t.isSaved c := by
  have hType' : c.get? u.item.typeId = some ty := hSame ▸ hType
  rw [isSaved, isSaved, hSame, hu.isDoor_eq hType', ht.isDoor_eq hType, hu.isBed_eq hType',
    ht.isBed_eq hType, ht.isContainer_eq hu hType hSame, hHolds]

/-- A fixture has something in it just if its record says so. -/
theorem RenewedAs.isEmpty_contents (h : base.RenewedAs c t u) (hReturns : t.Every (Item.Returns c)) :
    u.contents.isEmpty = t.contents.isEmpty := by
  obtain ⟨i, contents⟩ := t
  obtain ⟨ts, hBuilt, hRelated, _⟩ := buildAll_returns contents hReturns.2
  have hContents : u.contents = mapAll (Item.started c) ts := by
    rw [h.same.contents]
    show mapAll _ ((Record.buildAll c (records c contents)).1.toOption.getD []) = _
    rw [hBuilt]
    rfl
  -- As many items come back as the record tells of.
  have hLength : u.contents.length = contents.length := by
    rw [hContents, length_mapAll, hRelated.length_eq]
  rw [Bool.eq_iff_iff, List.isEmpty_iff, List.isEmpty_iff, ← List.length_eq_zero_iff,
    ← List.length_eq_zero_iff, hLength]
  rfl

end ItemTree

namespace World

variable {w w' : World} {p : Position} {id : ItemId}

/-- Trees that are written the same one by one make the same row, and no others do, if four octets
can count theirs. -/
theorem tileOctets_eq_iff {c : Catalog} {ts us : List ItemTree}
    (hts : (ItemTree.encodeAll c ts).length < 4294967296 →
      ItemTree.EveryOf (Item.Readable c) ts)
    (hus : ItemTree.EveryOf (Item.Readable c) us)
    (hShort : (ItemTree.encodeAll c us).length < 4294967296) :
    tileOctets c p ts = tileOctets c p us ↔ ts.map (·.encode c) = us.map (·.encode c) := by
  constructor
  · intro hEq
    -- Both numbers of trees are small, since no tree takes less than an octet.
    obtain ⟨_, hHead⟩ := Restoring.readHead_tileOctets c p ts
    obtain ⟨_, hHead'⟩ := Restoring.readHead_tileOctets c p us
    rw [hEq, hHead'] at hHead
    simp only [Option.some.injEq, Prod.mk.injEq, Reader.mk.injEq, true_and] at hHead
    obtain ⟨hCount, _, hOctets⟩ := hHead
    have hLengths := ItemTree.length_le_encodeAll (c := c) ts
    have hLengths' := ItemTree.length_le_encodeAll (c := c) us
    rw [← hOctets] at hLengths
    have hNumbers := congrArg UInt32.toNat hCount
    rw [UInt32.toNat_ofNat', UInt32.toNat_ofNat', Nat.mod_eq_of_lt (by omega),
      Nat.mod_eq_of_lt (by omega)] at hNumbers
    exact Record.map_encode_eq (hts (hOctets ▸ hShort)) hus hNumbers.symm hOctets.symm
  · intro hEq
    have hLengths := congrArg List.length hEq
    rw [List.length_map, List.length_map] at hLengths
    rw [tileOctets, tileOctets, hLengths, ItemTree.encodeAll_eq_flatMap,
      ItemTree.encodeAll_eq_flatMap, List.flatMap_def, List.flatMap_def, hEq]

/-- What an item is written as where it lies on a house tile, unless it is not saved. -/
def writtenAs (w : World) (id : ItemId) : Option (List UInt8) :=
  ((w.graph.tree? id).filter (·.isSaved w.catalog)).map (·.encode w.catalog)

/-- An item is written as the tree that it shows, if that is stored. -/
theorem writtenAs_of_shows {t : ItemTree} (hw : w.Sound) (h : w.graph.Shows id t) :
    w.writtenAs id = if t.isSaved w.catalog then some (t.encode w.catalog) else none := by
  rw [writtenAs, hw.consistent.tree?_eq_some_iff.2 h, Option.filter_some]
  split_ifs <;> rfl

/-- An item is written exactly if it is stored. -/
theorem isSome_writtenAs (w : World) (id : ItemId) : (w.writtenAs id).isSome = w.isStored id := by
  unfold writtenAs isStored
  rw [Option.isSome_map]
  cases w.graph.tree? id with
  | none => rfl
  | some t =>
    -- An item that shows a tree is written exactly if that tree is saved.
    rw [Option.filter_some, Option.any_some]
    split_ifs with hSaved
    · rw [hSaved]
      rfl
    · rw [Bool.eq_false_of_not_eq_true hSaved]
      rfl

/-- The trees that are saved of a tile are written as its items are. -/
theorem map_encode_savedTrees (w : World) (p : Position) :
    (w.savedTrees p).map (·.encode w.catalog)
      = (w.graph.contents (.tile p)).filterMap w.writtenAs := by
  rw [savedTrees, List.filter_filterMap, List.map_filterMap]
  rfl

/-- No row is written for a tile on which nothing is saved. -/
theorem tileRow?_eq_none_iff {tile : UInt32 × Position} :
    w.tileRow? tile = none ↔ ∀ id ∈ w.graph.contents (.tile tile.2), w.isStored id = false := by
  rw [tileRow?_eq_none, ← List.map_eq_nil_iff (f := (·.encode w.catalog)), map_encode_savedTrees,
    List.filterMap_eq_nil_iff]
  refine forall₂_congr fun id _ => ?_
  rw [← isSome_writtenAs, Option.isSome_eq_false_iff, Option.isNone_iff_eq_none]

/-- **Two worlds write the same row for a tile just if they write the same trees**, if the one row
is not too long. -/
theorem tileRow?_eq_iff (hw : w.Sound) (hw' : w'.Sound) (hCatalog : w.catalog = w'.catalog)
    {tile : UInt32 × Position}
    (hShort : (ItemTree.encodeAll w'.catalog (w'.savedTrees tile.2)).length < 4294967296) :
    w.tileRow? tile = w'.tileRow? tile
      ↔ (w.graph.contents (.tile tile.2)).filterMap w.writtenAs
        = (w'.graph.contents (.tile tile.2)).filterMap w'.writtenAs := by
  have hOctets := tileOctets_eq_iff (p := tile.2)
    (hCatalog ▸ hw.readable_savedTrees tile.2) (hw'.readable_savedTrees tile.2 hShort) hShort
  rw [← map_encode_savedTrees, ← map_encode_savedTrees, hCatalog, ← hOctets]
  -- A row is left out where there are no trees, so this has to agree too.
  have hEmpty : tileOctets w'.catalog tile.2 (w.savedTrees tile.2)
      = tileOctets w'.catalog tile.2 (w'.savedTrees tile.2) →
        (w.savedTrees tile.2 = [] ↔ w'.savedTrees tile.2 = []) := by
    intro hEq
    have hLengths := congrArg List.length (hOctets.1 hEq)
    rw [List.length_map, List.length_map] at hLengths
    rw [← List.length_eq_zero_iff, ← List.length_eq_zero_iff, hLengths]
  cases hRow : w'.tileRow? tile with
  | none =>
    have hNone := tileRow?_eq_none.1 hRow
    rw [tileRow?_eq_none]
    constructor
    · intro hAlso
      rw [hAlso, hNone]
    · -- An empty tile has no row, whatever its octets would be.
      exact fun hEq => (hEmpty hEq).2 hNone
  | some row =>
    obtain ⟨hSome, rfl⟩ := tileRow?_eq_some.1 hRow
    rw [tileRow?_eq_some, hCatalog, TileRow.mk.injEq]
    constructor
    · exact fun hBoth => hBoth.2.2.symm
    · exact fun hEq => ⟨fun hNone => hSome ((hEmpty hEq).1 hNone), rfl, hEq.symm⟩

/-! ## §3. Fixtures that have come home. -/

/-- What a fixture of the map is written as once the record has come to it that was written for it,
or without one. -/
def writtenAgain (w w' : World) (id : ItemId) : Option (List UInt8) :=
  if w'.isStored id then
    (w.graph.tree? id).bind fun base =>
      (w'.graph.tree? id).map fun t => (base.renewed w.catalog t).encode w.catalog
  else w.writtenAs id

/-- A tree that is stored of a standing tile comes back. -/
theorem Standing.returns (h : Standing w w' p) (hid : id ∈ w.graph.contents (.tile p))
    {t : ItemTree} (ht : w'.graph.tree? id = some t) (hSaved : t.isSaved w'.catalog = true) :
    t.Every (Item.Returns w.catalog) := by
  have hAll := h.returnable.returns
  rw [ItemTree.everyOf_iff, h.catalog] at hAll
  refine hAll t (List.mem_filter.2 ⟨List.mem_filterMap.2 ⟨id, ?_, ht⟩, hSaved⟩)
  rw [h.contents]
  exact hid

variable {l : World}

/-- A fixture that its record has come to is saved, as it was. -/
theorem Standing.isSaved_of_renewed (h : Standing w w' p) (hid : id ∈ w.graph.contents (.tile p))
    (hl : l.Sound) (hc : l.catalog = w.catalog) {base t u : ItemTree}
    (ht : w'.graph.tree? id = some t) (hSaved : t.isSaved w'.catalog = true)
    (hu : l.graph.Shows id u) (hRenewed : base.RenewedAs w.catalog t u) :
    u.isSaved w.catalog = true := by
  have hReturns := h.returns hid ht hSaved
  obtain ⟨ty, hType, _⟩ := Returning.known_record hReturns
  have hShows := h.sound'.consistent.tree?_eq_some_iff.1 ht
  have hTyped : t.item.Typed w.catalog := h.catalog ▸ h.sound'.typed id t.item hShows.item?_eq
  have hTyped' : u.item.Typed w.catalog := hc ▸ hl.typed id u.item hu.item?_eq
  rw [ItemTree.isSaved_eq hTyped hTyped' hType hRenewed.typeId
    (hRenewed.isEmpty_contents hReturns), ← h.catalog, hSaved]

/-- **What a fixture is written as that has come home.** -/
theorem Returned.writtenAs (h : Standing w w' p) (hBack : Returned w w' p l.graph) (hl : l.Sound)
    (hc : l.catalog = w.catalog) (hid : id ∈ w.graph.contents (.tile p)) :
    l.writtenAs id = w.writtenAgain w' id := by
  unfold writtenAgain
  cases hStored : w'.isStored id with
  | true =>
    -- A fixture with a record: what the record makes of it is the tree that is written again.
    obtain ⟨base, t, u, hBase, ht, hu, hRenewed⟩ := hBack.home id hid hStored
    rw [isStored, ht, Option.any_some] at hStored
    rw [if_pos rfl, hBase, ht, Option.bind_some, Option.map_some, writtenAs_of_shows hl hu, hc,
      h.isSaved_of_renewed hid hl hc ht hStored hu hRenewed, if_pos rfl, hRenewed.same.encode]
  | false =>
    -- A fixture without a record is left alone, and is written as the map has it.
    obtain ⟨base, _, hBase, _⟩ := h.trees hid
    have hShows := h.sound.consistent.tree?_eq_some_iff.1 hBase
    rw [if_neg (by decide), writtenAs_of_shows h.sound hShows,
      writtenAs_of_shows hl (hShows.leftAlone (hBack.left id hid hStored)), hc]

/-- What was saved is saved again. -/
theorem Returned.isStored (h : Standing w w' p) (hBack : Returned w w' p l.graph) (hl : l.Sound)
    (hc : l.catalog = w.catalog) (hid : id ∈ w.graph.contents (.tile p))
    (hStored : w'.isStored id = true) : l.isStored id = true := by
  obtain ⟨base, t, hBase, ht⟩ := h.trees hid
  rw [← isSome_writtenAs, hBack.writtenAs h hl hc hid, writtenAgain, if_pos hStored, hBase, ht]
  rfl

/-- **The row of a tile whose records have come home is written as it was just if every fixture on
its own is.** -/
theorem Returned.tileRow?_eq_iff {tile : UInt32 × Position} (h : Standing w w' tile.2)
    (hBack : Returned w w' tile.2 l.graph) (hl : l.Sound) (hc : l.catalog = w.catalog) :
    l.tileRow? tile = w'.tileRow? tile
      ↔ ∀ id ∈ w.graph.contents (.tile tile.2), w.writtenAgain w' id = w'.writtenAs id := by
  have hStill : ∀ id ∈ w.graph.contents (.tile tile.2), (w'.writtenAs id).isSome →
      (l.writtenAs id).isSome := by
    intro id hid hSome
    rw [isSome_writtenAs] at hSome ⊢
    exact hBack.isStored h hl hc hid hSome
  rw [World.tileRow?_eq_iff hl h.sound' (hc.trans h.catalog.symm) h.returnable.short,
    hBack.contents, h.contents, filterMap_eq_iff _ hStill]
  exact forall₂_congr fun id hid => by rw [hBack.writtenAs h hl hc hid]

end World

end Homestead
