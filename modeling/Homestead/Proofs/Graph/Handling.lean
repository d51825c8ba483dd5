/-
  Homestead.Proofs.Graph.Handling
  ───────────────────────────────
  **WHAT DOES NOT MOVE STAYS WHERE IT IS.**

  Items are handled when new ones are made and when ones that move are put
  somewhere, taken out or moved.  All the while the fixtures of a tile, the
  items on it that do not move, are the same ones, in the same order, and of
  the types that they had; only what lies in them may become another thing.

  Main results:
    * `SameFixtures` — the fixtures of all tiles are the same;
    * `sameFixtures_perform` — handling one item keeps them;
    * `sameFixtures_run` — and so does a run of it.
-/
import Homestead.Proofs.Graph.Advance
import Homestead.Proofs.Record.Fields

namespace Homestead

namespace Graph

variable {c : Catalog} {g g' g'' : Graph}

/-! ## §1. Fixtures. -/

/-- The type of an item. -/
def typeId? (g : Graph) (id : ItemId) : Option TypeId :=
  (g.item? id).map (·.typeId)

/-- Whether there is an item of the number, and its type moves. -/
def moves (c : Catalog) (g : Graph) (id : ItemId) : Bool :=
  (g.typeId? id).any fun typeId => ((c.get? typeId).map (·.moveable)).getD false

/-- The items on a tile that do not move. -/
def fixtures (c : Catalog) (g : Graph) (p : Position) : List ItemId :=
  (g.contents (.tile p)).filter fun id => !g.moves c id

/-- On every tile the same items do not move, in the same order, and they are of the same types. -/
structure SameFixtures (c : Catalog) (g g' : Graph) : Prop where
  /-- They are the same, in the same order. -/
  list : ∀ p, g'.fixtures c p = g.fixtures c p
  /-- They are of the same types. -/
  typeId? : ∀ p, ∀ id ∈ g.fixtures c p, g'.typeId? id = g.typeId? id

theorem SameFixtures.refl (c : Catalog) (g : Graph) : SameFixtures c g g where
  list _ := rfl
  typeId? _ _ _ := rfl

/-- Two changes that leave the fixtures do so together. -/
theorem SameFixtures.trans (h : SameFixtures c g g') (h' : SameFixtures c g' g'') :
    SameFixtures c g g'' where
  list p := (h'.list p).trans (h.list p)
  typeId? p id hid := by
    rw [h'.typeId? p id (by rw [h.list]; exact hid), h.typeId? p id hid]

/-- The type of an item is told by its data. -/
theorem typeId?_of_item? {id : ItemId} (h : g'.item? id = g.item? id) :
    g'.typeId? id = g.typeId? id := by
  rw [typeId?, typeId?, h]

/-- Whether an item moves is told by its type. -/
theorem moves_of_typeId? {id : ItemId} (h : g'.typeId? id = g.typeId? id) :
    g'.moves c id = g.moves c id := by
  rw [moves, moves, h]

/-- What lies on tiles afterwards is of the type that it had, and differs from what lay there in
what moves only. -/
theorem sameFixtures_of_filter
    (hTypes : ∀ p, ∀ id ∈ g'.contents (.tile p), g'.typeId? id = g.typeId? id)
    (hLists : ∀ p, (g'.contents (.tile p)).filter (fun id => !g.moves c id) = g.fixtures c p) :
    SameFixtures c g g' where
  list p := by
    have hMoves : ∀ id ∈ g'.contents (.tile p), (!g'.moves c id) = !g.moves c id := by
      intro id hid
      rw [moves_of_typeId? (hTypes p id hid)]
    rw [fixtures, List.filter_congr hMoves]
    exact hLists p
  typeId? p id hid := by
    rw [← hLists p] at hid
    exact hTypes p id (List.mem_of_mem_filter hid)

/-- The same lies on all tiles. -/
theorem sameFixtures_of_contents
    (hLists : ∀ p, g'.contents (.tile p) = g.contents (.tile p))
    (hTypes : ∀ p, ∀ id ∈ g.contents (.tile p), g'.typeId? id = g.typeId? id) :
    SameFixtures c g g' := by
  refine sameFixtures_of_filter ?_ ?_
  · intro p id hid
    rw [hLists] at hid
    exact hTypes p id hid
  · intro p
    rw [hLists]
    rfl

/-- No item is another one, and the lists of tiles differ in what moves only. -/
theorem sameFixtures_of_items (hItems : ∀ id, g'.item? id = g.item? id)
    (hLists : ∀ p, (g'.contents (.tile p)).filter (fun id => !g.moves c id) = g.fixtures c p) :
    SameFixtures c g g' :=
  sameFixtures_of_filter (fun _ id _ => typeId?_of_item? (hItems id)) hLists

/-! ## §2. Items that move. -/

/-- Another list for a holder, with the same fixtures in it. -/
theorem sameFixtures_relist {holder : Holder} (hLive : g.isLive holder) {ids : List ItemId}
    (hSame : ids.filter (fun id => !g.moves c id)
      = (g.contents holder).filter fun id => !g.moves c id) (id : ItemId)
    (link : Option Holder) : SameFixtures c g (g.relist holder ids id link) := by
  refine sameFixtures_of_items (item?_relist holder ids id · link) ?_
  intro p
  rw [contents_relist hLive]
  by_cases hTile : Holder.tile p = holder
  · rw [if_pos hTile, hSame, ← hTile]
    rfl
  · rw [if_neg hTile]
    rfl

/-- **Something that moves is put somewhere.** -/
theorem sameFixtures_insert {target : Holder} {index : Nat} {id : ItemId}
    (hMoves : g.moves c id = true) (h : g.insert target index id = .ok g') :
    SameFixtures c g g' := by
  obtain ⟨_, _, _, hLive, _, rfl⟩ := insert_eq_ok h
  refine sameFixtures_relist hLive ?_ id target
  rw [insertAt, List.filter_append, List.filter_cons_of_neg (by simp [hMoves]),
    ← List.filter_append, List.take_append_drop]

/-- **Something that moves is taken out.** -/
theorem sameFixtures_remove {holder : Holder} {id : ItemId} (hMoves : g.moves c id = true)
    (h : g.remove holder id = .ok g') : SameFixtures c g g' := by
  obtain ⟨hMem, rfl⟩ := remove_eq_ok h
  refine sameFixtures_relist (g.isLive_of_mem_contents hMem) ?_ id none
  have hNot : id ∉ (g.contents holder).filter fun id => !g.moves c id := by
    simp [hMoves]
  rw [← List.erase_filter, List.erase_of_not_mem hNot]

/-- Taking away what moves leaves the fixtures. -/
theorem sameFixtures_detach {id : ItemId} {former : Option Holder} (hMoves : g.moves c id = true)
    (h : g.detach id = .ok (former, g')) : SameFixtures c g g' := by
  rcases (detach_eq_ok h).2 with ⟨_, rfl⟩ | ⟨holder, hRemove⟩
  · -- An item without a holder stands in no list.
    refine sameFixtures_of_items (item?_setHolder id · none) ?_
    intro p
    rw [contents_setHolder]
    rfl
  · exact sameFixtures_remove hMoves hRemove

/-- **Something that moves is moved**, or put back if the target does not take it. -/
theorem sameFixtures_move {id : ItemId} (hMoves : g.moves c id = true) (target : Holder) :
    SameFixtures c g (g.move id target).2 := by
  obtain hSame | ⟨former, g₁, hDetach, hOut | ⟨holder, -, hAdd⟩⟩ := g.move_cases id target
  · rw [hSame]
    exact .refl c g
  · rw [hOut]
    exact sameFixtures_detach hMoves hDetach
  · -- It is still something that moves when it is put somewhere.
    have hStill : g₁.moves c id = true := by
      rw [moves_of_typeId? (typeId?_of_item? (item?_detach hDetach id))]
      exact hMoves
    exact (sameFixtures_detach hMoves hDetach).trans (sameFixtures_insert hStill hAdd)

/-! ## §3. New items, and items that go. -/

/-- New items lie on no tile. -/
theorem sameFixtures_planted (hg : g.Consistent) {holder : Option Holder} {ids : List ItemId}
    {ts : List ItemTree} (h : Planted g g' holder ids ts) : SameFixtures c g g' := by
  refine sameFixtures_of_contents ?_ ?_
  · intro p
    rw [contents, contents, tile?_eq_of_tiles h.tiles]
  · intro p id hid
    obtain ⟨n, hn, _⟩ := hg.linked _ _ hid
    have hItem : g.item? id = some n.item := item?_eq_some.2 ⟨n, hn, rfl⟩
    rw [typeId?, typeId?, item?_planted hg h hItem, hItem]

/-- What lies on tiles does not go. -/
theorem sameFixtures_retain (hg : g.Consistent) (handles : List ItemId) :
    SameFixtures c g (g.retain handles) := by
  refine sameFixtures_of_contents (fun _ => rfl) ?_
  intro p id hid
  obtain ⟨n, hn, _⟩ := hg.linked _ _ hid
  have hStays : g.Stays handles id := hg.stays_of_mem hid fun _ hItem => by cases hItem
  rw [typeId?, typeId?, item?, item?, hn, node?_retain_eq_some.2 ⟨hn, hStays⟩]

/-- An edit leaves the type of an item, and so the fixtures. -/
theorem sameFixtures_edit (id : ItemId) (e : Item.Edit) :
    SameFixtures c g (g.update id (·.edit c e)) := by
  refine sameFixtures_of_contents ?_ ?_
  · intro p
    rw [contents_update]
  · intro p j _
    rw [typeId?, item?_update, typeId?]
    split_ifs
    · rw [Option.map_map]
      congr 1
      funext i
      exact Item.typeId_edit c i e
    · rfl

/-- Making a tile leaves the fixtures. -/
theorem sameFixtures_ensureTile (p : Position) : SameFixtures c g (g.ensureTile p) := by
  refine sameFixtures_of_contents (fun q => contents_ensureTile p (.tile q)) ?_
  intro q id _
  rw [typeId?, item?_ensureTile, typeId?]

/-! ## §4. Handling. -/

/-- Whether an action only makes or edits items, or puts, takes out or moves ones that move. -/
def Action.isHandling (c : Catalog) (g : Graph) : Action → Bool
  | .ensureTile _ | .create _ _ | .clone _ | .edit _ _ | .build _ | .keep _ => true
  | .insert _ _ id | .add _ id | .remove _ id | .detach id | .move id _ => g.moves c id
  | .dropTile _ | .retype _ _ | .fill _ _ => false

/-- Whether all actions of a run do so. -/
def isHandling (c : Catalog) : Graph → List Action → Bool
  | _, [] => true
  | g, a :: actions => a.isHandling c g && isHandling c (g.perform c a) actions

/-- An attempt leaves the fixtures if success does. -/
theorem SameFixtures.attempt {result : Except GraphError Graph}
    (h : ∀ g', result = .ok g' → SameFixtures c g g') : SameFixtures c g (g.attempt result) := by
  cases result with
  | ok g' => exact h g' rfl
  | error e => exact .refl c g

/-- **Handling an item keeps the fixtures of all tiles.** -/
theorem sameFixtures_perform (hg : g.Consistent) {a : Action} (h : a.isHandling c g = true) :
    SameFixtures c g (g.perform c a) := by
  cases a with
  | ensureTile p => exact sameFixtures_ensureTile p
  -- New items lie nowhere, so no tile has one more.
  | create typeId n =>
    unfold perform
    dsimp only
    split
    next i _ =>
      exact sameFixtures_planted hg (planted_create hg (t := .node i [])
        ⟨fun h => absurd rfl h, trivial⟩)
    next => exact .refl c g
  | clone id =>
    show SameFixtures c g (((g.clone id).map (·.2)).getD g)
    cases hClone : g.clone id with
    | none => exact .refl c g
    | some result =>
      obtain ⟨t, ht, _⟩ := Option.map_eq_some_iff.1 hClone
      obtain ⟨_, _, g₁, _, hCopied, hPlanted⟩ :=
        planted_clone hg (hg.tree?_eq_some_iff.1 ht).isSome_node?
      obtain rfl := Option.some_inj.1 (hCopied.symm.trans hClone)
      exact sameFixtures_planted hg hPlanted
  | build r =>
    unfold perform
    dsimp only
    split
    next t _ hBuilt =>
      exact sameFixtures_planted hg (planted_create hg
        (Record.hollow_of_build r t (by rw [hBuilt])))
    next => exact .refl c g
  | edit id e => exact sameFixtures_edit id e
  | keep handles => exact sameFixtures_retain hg handles
  -- The others are about an item that moves.
  | insert target index id =>
    rw [perform_insert]
    exact .attempt fun _ hOk => sameFixtures_insert h hOk
  | add target id =>
    rw [perform_add]
    exact .attempt fun _ hOk => sameFixtures_insert h hOk
  | remove holder id =>
    rw [perform_remove]
    exact .attempt fun _ hOk => sameFixtures_remove h hOk
  | detach id =>
    rcases detach_perform c g id with ⟨former, hDetach⟩ | hSame
    · exact sameFixtures_detach h hDetach
    · rw [hSame]
      exact .refl c g
  | move id target => exact sameFixtures_move h target
  | dropTile p => cases h
  | retype id newType => cases h
  | fill id r => cases h

/-- **A run in which items are handled keeps the fixtures of all tiles.** -/
theorem sameFixtures_run (hg : g.Consistent) (actions : List Action)
    (h : g.isHandling c actions = true) : SameFixtures c g (g.run c actions) := by
  induction actions generalizing g with
  | nil => exact .refl c g
  | cons a actions ih =>
    rw [isHandling, Bool.and_eq_true] at h
    have hFirst := sameFixtures_perform hg h.1
    exact hFirst.trans (ih (hg.perform a) h.2)

end Graph

end Homestead
