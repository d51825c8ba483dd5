/-
  Homestead.Proofs.Blueprint.Counted
  ──────────────────────────────────
  **WHAT IS COUNTED WHILE A BLUEPRINT IS BUILT.**

  Every entry of a blueprint, however deep, stands below the entries that
  it lies in.  An item is made of it if its type can be used and the types
  of all that it lies in can be used.  An entry that is the first on its
  way inwards whose type cannot be used is counted as unknown, and what
  lies in it is not looked at.  On house tiles an item that moves is made
  and counted, and left out afterwards.

  The report of a blueprint that can be built is the sum of what its tiles
  add to it.

  Main results:
    * `Blueprint.account` — what there is to be reported;
    * `Reports`, `reports_bind`, `reports_foldlM` — what a step adds;
    * `reports_build` — an entry and all that lies in it;
    * `report_ofBlueprint` — the report of a blueprint.
-/
import Homestead.Proofs.Blueprint.Made

namespace Homestead

open Drafting

/-! ## §1. What there is to be counted. -/

/-- An entry, and those that it lies in, the innermost first. -/
abbrev NestedSketch :=
  ItemSketch × List ItemSketch

mutual

/-- An entry and all that lie in it, each with those that it lies in. -/
def ItemEntry.nested (above : List ItemSketch) : ItemEntry → List NestedSketch
  | .mk sketch contents => (sketch, above) :: ItemEntry.nestedAll (sketch :: above) contents

/-- The same for a list of entries. -/
def ItemEntry.nestedAll (above : List ItemSketch) : List ItemEntry → List NestedSketch
  | [] => []
  | e :: es => e.nested above ++ ItemEntry.nestedAll above es

end

namespace Blueprint

/-- All entries of tiles, each with those that it lies in. -/
def entries (tiles : List TileEntry) : List NestedSketch :=
  ItemEntry.nestedAll [] (tiles.flatMap (·.items))

/-- The number of entries of which items are made: they and all that they lie in are
constructible. -/
def made (c : Catalog) (es : List NestedSketch) : Nat :=
  es.countP fun e => e.1.isConstructible c && e.2.all (·.isConstructible c)

/-- The number of entries that are not constructible and lie in such only as are. -/
def strange (c : Catalog) (es : List NestedSketch) : Nat :=
  es.countP fun e => !e.1.isConstructible c && e.2.all (·.isConstructible c)

/-- The number of entries that lie directly on tiles and are left out because they move. -/
def dropped (c : Catalog) (tiles : List TileEntry) : Nat :=
  (tiles.map fun e => e.items.countP (·.isDropped c e.house)).sum

/-- What there is to be reported of entries as such. -/
def accountOf (c : Catalog) (es : List NestedSketch) : BuildReport where
  items := made c es
  unknown := strange c es

/-- What there is to be reported of tiles. -/
def account (c : Catalog) (tiles : List TileEntry) : BuildReport where
  tiles := tiles.length
  items := made c (entries tiles)
  unknown := strange c (entries tiles)
  dropped := dropped c tiles

end Blueprint

/-! ## §2. What a step adds to the report. -/

namespace BuildReport

/-- The sum of two reports. -/
def plus (r s : BuildReport) : BuildReport where
  tiles := r.tiles + s.tiles
  items := r.items + s.items
  unknown := r.unknown + s.unknown
  dropped := r.dropped + s.dropped

/-- Reports are added up in any grouping. -/
theorem plus_assoc (r s t : BuildReport) : (r.plus s).plus t = r.plus (s.plus t) := by
  simp only [plus, Nat.add_assoc]

theorem plus_zero (r : BuildReport) : r.plus {} = r := rfl

theorem zero_plus (r : BuildReport) : plus {} r = r := by
  simp only [plus, Nat.zero_add]

end BuildReport

namespace Drafting

variable {α β : Type}

/-- If the step gives a value, it adds so much to the report. -/
def Reports (x : Drafting α) (r : BuildReport) : Prop :=
  ∀ d a d', x.run d = (.ok a, d') → d'.report = d.report.plus r

/-- A value that is given outright reports nothing. -/
theorem reports_pure (a : α) : Reports (pure a) {} := by
  intro d b d' h
  cases h
  rfl

/-- A failure gives no value, so it may be said to report anything. -/
theorem reports_throw (e : BlueprintError) (r : BuildReport) :
    Reports (throw e : Drafting α) r := by
  intro d a d' h
  cases h

/-- An outcome that is computed outside of the draft reports nothing. -/
theorem reports_ofExcept (x : Except BlueprintError α) :
    Reports (MonadExcept.ofExcept x) {} := by
  cases x with
  | error e => exact reports_throw e {}
  | ok a => exact reports_pure a

/-- A notice is no part of the counts. -/
theorem reports_note (n : Notice) : Reports (note n) {} := by
  intro d a d' h
  cases h
  rfl

/-- A count that adds something reports it. -/
theorem reports_count {f : BuildReport → BuildReport} {r : BuildReport}
    (h : ∀ s, f s = s.plus r) : Reports (count f) r := by
  intro d a d' hRun
  cases hRun
  exact h d.report

/-- **One step after another**, where the second may rely on what the first one gives. -/
theorem reports_bind {x : Drafting α} {f : α → Drafting β} {P : α → Prop} {r s : BuildReport}
    (hx : Reports x r) (hP : Yields x P) (hf : ∀ a, P a → Reports (f a) s) :
    Reports (x >>= f) (r.plus s) := by
  intro d b d'' h
  rw [run_bind] at h
  rcases hRun : x.run d with ⟨result, d'⟩
  rw [hRun] at h
  cases result with
  | error e => cases h
  | ok a =>
    have hFirst := hx d a d' hRun
    have hSecond := hf a (hP d a (by rw [hRun])) d' b d'' h
    rw [hSecond, hFirst, BuildReport.plus_assoc]

/-- A step that adds nothing to what comes after it. -/
theorem reports_bind_zero {x : Drafting α} {f : α → Drafting β} {P : α → Prop} {s : BuildReport}
    (hx : Reports x {}) (hP : Yields x P) (hf : ∀ a, P a → Reports (f a) s) :
    Reports (x >>= f) s := by
  have h := reports_bind hx hP hf
  rwa [BuildReport.zero_plus] at h

/-- A step that does not give a value, whatever were to come after it. -/
theorem reports_throw_bind (e : BlueprintError) (f : α → Drafting β) (r : BuildReport) :
    Reports (throw e >>= f) r := by
  intro d b d' h
  cases h

/-- **The same step for one element after another**: what a list adds is what its first element
adds, and then what the others add. -/
theorem reports_foldlM {f : α → β → Drafting α} {P : α → Prop} {r : β → BuildReport}
    {s : List β → BuildReport} (hNil : s [] = {})
    (hCons : ∀ b bs, s (b :: bs) = (r b).plus (s bs))
    (hP : ∀ a b, P a → Yields (f a b) P) (hf : ∀ a b, P a → Reports (f a b) (r b))
    (bs : List β) {a : α} (ha : P a) : Reports (bs.foldlM f a) (s bs) := by
  induction bs generalizing a with
  | nil =>
    rw [hNil]
    exact reports_pure a
  | cons b bs ih =>
    rw [List.foldlM_cons, hCons]
    exact reports_bind (hf a b ha) (hP a b ha) fun _ ha' => ih ha'

end Drafting

/-! ## §3. Items. -/

section Items

variable {c : Catalog} {above : List ItemSketch}

mutual

/-- What lies in an entry lies in all that the entry lies in. -/
theorem ItemEntry.suffix_nested (above : List ItemSketch) : ∀ (e : ItemEntry),
    ∀ x ∈ e.nested above, above <:+ x.2
  | .mk sketch contents, x, hMem => by
    rw [ItemEntry.nested] at hMem
    rcases List.mem_cons.1 hMem with rfl | hInside
    · exact List.suffix_refl above
    · exact (List.suffix_cons sketch above).trans
        (ItemEntry.suffix_nestedAll (sketch :: above) contents x hInside)

/-- The entries above a nested one end with those above the list it is in. -/
theorem ItemEntry.suffix_nestedAll (above : List ItemSketch) : ∀ (es : List ItemEntry),
    ∀ x ∈ ItemEntry.nestedAll above es, above <:+ x.2
  | [], x, hMem => by
    rw [ItemEntry.nestedAll] at hMem
    cases hMem
  | e :: es, x, hMem => by
    rw [ItemEntry.nestedAll] at hMem
    rcases List.mem_append.1 hMem with hFirst | hRest
    · exact ItemEntry.suffix_nested above e x hFirst
    · exact ItemEntry.suffix_nestedAll above es x hRest

end

/-- The nested entries of two lists are those of the one and then of the other. -/
theorem ItemEntry.nestedAll_append (above : List ItemSketch) (es es' : List ItemEntry) :
    ItemEntry.nestedAll above (es ++ es')
      = ItemEntry.nestedAll above es ++ ItemEntry.nestedAll above es' := by
  induction es with
  | nil => rfl
  | cons e es ih =>
    rw [List.cons_append, ItemEntry.nestedAll, ItemEntry.nestedAll, ih, List.append_assoc]

namespace Blueprint

/-- The account of two lists is the sum of their accounts. -/
theorem accountOf_append (es es' : List NestedSketch) :
    accountOf c (es ++ es') = (accountOf c es).plus (accountOf c es') := by
  simp only [accountOf, BuildReport.plus, made, strange, List.countP_append]

/-- The account of a list is that of its first entry and of the rest. -/
theorem accountOf_cons (e : NestedSketch) (es : List NestedSketch) :
    accountOf c (e :: es) = (accountOf c [e]).plus (accountOf c es) :=
  accountOf_append [e] es

/-- **Nothing is counted that lies in what cannot be made.** -/
theorem accountOf_nestedAll (hAbove : above.all (·.isConstructible c) = false)
    (es : List ItemEntry) : accountOf c (ItemEntry.nestedAll above es) = {} := by
  -- Whatever is nested in it has all of what is above it above itself.
  have hInside : ∀ x ∈ ItemEntry.nestedAll above es, x.2.all (·.isConstructible c) = false := by
    intro x hMem
    obtain ⟨s, hs, hNot⟩ := List.all_eq_false.1 hAbove
    exact List.all_eq_false.2 ⟨s, (ItemEntry.suffix_nestedAll above es x hMem).subset hs, hNot⟩
  have hMade : made c (ItemEntry.nestedAll above es) = 0 := by
    refine List.countP_eq_zero.2 ?_
    intro x hMem
    simp [hInside x hMem]
  have hStrange : strange c (ItemEntry.nestedAll above es) = 0 := by
    refine List.countP_eq_zero.2 ?_
    intro x hMem
    simp [hInside x hMem]
  rw [accountOf, hMade, hStrange]

/-- What an entry by itself adds, if all that it lies in can be made. -/
theorem accountOf_singleton (hAbove : above.all (·.isConstructible c) = true) (s : ItemSketch) :
    accountOf c [(s, above)]
      = if s.isConstructible c then { items := 1 } else { unknown := 1 } := by
  cases hMade : s.isConstructible c <;> simp [accountOf, made, strange, hMade, hAbove]

end Blueprint

open Blueprint

mutual

/-- **Of an entry** everything is counted that lies in what can be made. -/
theorem reports_build {above : List ItemSketch}
    (hAbove : above.all (·.isConstructible c) = true) : ∀ e : ItemEntry,
    Reports (e.build c) (accountOf c (e.nested above))
  | .mk sketch contents => by
    rw [ItemEntry.nested, ItemEntry.build, accountOf_cons, accountOf_singleton hAbove]
    cases hNew : Item.create? c sketch.typeId sketch.count with
    | none =>
      -- What lies in it is not looked at, and is not to be counted.
      have hNot : sketch.isConstructible c = false := by rw [ItemSketch.isConstructible, hNew]; rfl
      rw [hNot, accountOf_nestedAll (by simp [hNot])]
      refine reports_bind (reports_count fun _ => rfl) yields_any fun _ _ => ?_
      exact reports_bind_zero (reports_note _) yields_any fun _ _ => reports_pure none
    | some new =>
      have hMade : sketch.isConstructible c = true := by rw [ItemSketch.isConstructible, hNew]; rfl
      rw [if_pos hMade]
      refine reports_bind_zero (reports_ofExcept _) yields_any fun item _ => ?_
      refine reports_bind (reports_count fun _ => rfl) yields_any fun _ _ => ?_
      have hBelow : (sketch :: above).all (·.isConstructible c) = true := by simp [hMade, hAbove]
      rw [← BuildReport.plus_zero (accountOf c _)]
      exact reports_bind (reports_buildContents hBelow item contents) yields_any
        fun _ _ => reports_pure _

/-- Building contents reports the account of all that is nested in them, by induction over the
entries. -/
theorem reports_buildContents {above : List ItemSketch}
    (hAbove : above.all (·.isConstructible c) = true) (holder : Item) :
    ∀ es : List ItemEntry,
      Reports (ItemEntry.buildContents c holder es) (accountOf c (ItemEntry.nestedAll above es))
  | [] => by
    rw [ItemEntry.buildContents, ItemEntry.nestedAll]
    exact reports_pure []
  | e :: es => by
    rw [ItemEntry.buildContents, ItemEntry.nestedAll, accountOf_append]
    refine reports_bind (reports_build hAbove e) yields_any fun o _ => ?_
    cases o with
    | none => exact reports_buildContents hAbove holder es
    | some tree =>
      dsimp only
      split_ifs
      · -- Where the building ends there is no account to give.
        exact reports_throw _ _
      · rw [← BuildReport.plus_zero (accountOf c _)]
        exact reports_bind (reports_buildContents hAbove holder es) yields_any
          fun _ _ => reports_pure _

end

end Items

/-! ## §4. Tiles. -/

open Blueprint

/-- What there is to be reported of an entry that lies directly on a tile. -/
def ItemEntry.account (c : Catalog) (house : Option UInt32) (e : ItemEntry) : BuildReport :=
  (accountOf c (e.nested [])).plus { dropped := if e.isDropped c house then 1 else 0 }

/-- What there is to be reported of the entries of one tile. -/
def ItemEntry.accountAll (c : Catalog) (house : Option UInt32) (es : List ItemEntry) :
    BuildReport :=
  (accountOf c (ItemEntry.nestedAll [] es)).plus { dropped := es.countP (·.isDropped c house) }

/-- The account of the items of a tile is that of the first and of the rest. -/
theorem ItemEntry.accountAll_cons (c : Catalog) (house : Option UInt32) (e : ItemEntry)
    (es : List ItemEntry) :
    ItemEntry.accountAll c house (e :: es)
      = (e.account c house).plus (ItemEntry.accountAll c house es) := by
  rw [ItemEntry.accountAll, ItemEntry.nestedAll, accountOf_append, List.countP_cons]
  simp only [ItemEntry.account, ItemEntry.accountAll, BuildReport.plus, BuildReport.mk.injEq]
  omega

/-- The account of the tiles is that of the first and of the rest. -/
theorem Blueprint.account_cons (c : Catalog) (e : TileEntry) (tiles : List TileEntry) :
    account c (e :: tiles) = (BuildReport.plus { tiles := 1 }
      (ItemEntry.accountAll c e.house e.items)).plus (account c tiles) := by
  have hEntries : accountOf c (entries (e :: tiles))
      = (accountOf c (ItemEntry.nestedAll [] e.items)).plus (accountOf c (entries tiles)) := by
    rw [entries, List.flatMap_cons, ItemEntry.nestedAll_append, accountOf_append]
    rfl
  have hMade := congrArg BuildReport.items hEntries
  have hStrange := congrArg BuildReport.unknown hEntries
  simp only [accountOf, BuildReport.plus] at hMade hStrange
  simp only [account, ItemEntry.accountAll, BuildReport.plus, accountOf, hMade, hStrange, dropped,
    List.map_cons, List.sum_cons, List.length_cons, BuildReport.mk.injEq]
  omega

namespace World

variable {c : Catalog} {w : World}

/-- Entering a built item reports nothing: it is counted when it is built. -/
theorem reports_enterTree (p : Position) (house : Option UInt32) (t : ItemTree) :
    Reports (w.enterTree p house t) {} := by
  have hPut : ∀ w₁ : World, Reports (w₁.putOn p (w.graph.create t).1) {} := by
    intro w₁
    unfold putOn
    split
    · exact reports_pure _
    · exact reports_throw _ _
  exact hPut _

/-- **An entry that lies directly on a tile.** -/
theorem reports_enterItem (hw : w.catalog = c) (p : Position) (house : Option UInt32)
    (e : ItemEntry) : Reports (enterItem p house w e) (e.account c house) := by
  unfold enterItem
  rw [hw]
  refine reports_bind (reports_build rfl e) (yields_build_gives c e) ?_
  intro o hGives
  -- What cannot be made is no loss of the tile; its own report has it.
  cases o with
  | none =>
    have hStays : e.isDropped c house = false := by
      rw [ItemEntry.isDropped, show e.sketch.isConstructible c = false from hGives,
        Bool.false_and, Bool.and_false]
    rw [hStays]
    exact reports_pure w
  | some tree =>
    have hMade : e.Makes c tree := hGives
    cases house with
    | none => exact reports_enterTree p none tree
    | some number =>
      have hDropped : e.isDropped c (some number) = w.isMoveable tree := by
        rw [ItemEntry.isDropped, hMade.isConstructible, hMade.isMoveable_eq hw]
        rfl
      rw [hDropped]
      dsimp only
      -- On a tile of a house, what moves is dropped and counted so.
      split_ifs
      · rw [← BuildReport.plus_zero { dropped := 1 }]
        refine reports_bind (reports_count fun _ => rfl) yields_any fun _ _ => ?_
        exact reports_bind_zero (reports_note _) yields_any fun _ _ => reports_pure w
      · exact reports_enterTree p (some number) tree

/-- Claiming a tile for a house reports nothing. -/
theorem reports_claimTile (p : Position) (house : Option UInt32) :
    Reports (w.claimTile p house) {} := by
  unfold claimTile
  split
  · exact reports_pure w
  · split
    · exact reports_throw _ _
    · exact reports_pure _

/-- **A tile with all that lies on it.** -/
theorem reports_enterTile (h : Drawn c w) (e : TileEntry) :
    Reports (w.enterTile e) (BuildReport.plus { tiles := 1 }
      (ItemEntry.accountAll c e.house e.items)) := by
  unfold enterTile
  split_ifs with hTwice
  · exact reports_throw_bind _ _ _
  · have hNone : w.graph.tile? e.position = none := by simpa using hTwice
    obtain ⟨hNew, hTile⟩ := h.ensureTile hNone
    refine reports_bind (reports_count fun _ => rfl) yields_any fun _ _ => ?_
    refine reports_bind_zero (reports_claimTile _ _) (yields_claimTile hNew hTile e.house) ?_
    intro w' hw'
    -- The catalog stays the same from entry to entry.
    refine reports_foldlM (P := fun w => Drawn c w ∧ w.houseOf? e.position = some e.house) rfl
      (ItemEntry.accountAll_cons c e.house) ?_ ?_ e.items hw'
    · exact fun _ entry hEntry => yields_enterItem entry hEntry
    · exact fun _ entry hEntry => reports_enterItem hEntry.1.catalog e.position e.house entry

/-- **The report of a blueprint that can be built says what there is to be reported.** -/
theorem report_ofBlueprint {b : Blueprint} (h : (ofBlueprint c b).1 = .ok w) :
    (ofBlueprint c b).2.report = account c b.tiles := by
  have hDraft : Reports (draft c b) (account c b.tiles) := by
    unfold draft
    -- Houses report nothing, and each tile reports its own account.
    refine reports_bind_zero (P := Drawn c) ?_ ?_ ?_
    · refine reports_foldlM (P := fun _ => True) (r := fun _ => {}) (s := fun _ => {}) rfl
        (fun _ _ => rfl) (fun _ _ _ => yields_any) ?_ b.houses trivial
      intro w e _
      unfold enterHouse
      split_ifs
      · exact reports_throw_bind _ _ _
      · exact reports_pure _
    · exact yields_foldlM (fun _ e hw => yields_enterHouse hw e) b.houses (drawn_empty c b.name)
    · intro w' hw'
      exact reports_foldlM (P := Drawn c) rfl (account_cons c) (fun _ e hw => yields_enterTile hw e)
        (fun _ e hw => reports_enterTile hw e) b.tiles hw'
  have hReport := hDraft {} w (ofBlueprint c b).2 (by rw [← h]; rfl)
  rw [hReport]
  exact BuildReport.zero_plus _

end World

end Homestead
