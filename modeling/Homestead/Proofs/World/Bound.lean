/-
  Homestead.Proofs.World.Bound
  ────────────────────────────
  **WHAT A FIXTURE TAKES FROM A RECORD.**

  A record of what does not move goes to an item of the map: it gets the
  updates of the record, then the contents, then the type, if it has
  another one, and last its time starts.  A new item that is built from
  the record gets the type first.

  The order tells in one respect.  Getting another type starts the time of
  an item anew or ends it, unless the new type has no time of its own or
  time stood still in the old one.  So the time that the record names is
  lost on a door of another type; everything else that it names is there
  as in a new item, and the time too where the types are the same.

  Main results:
    * `item?_register` — what becomes of an item that is registered;
    * `item?_place_fixture` — the fixture once the record is placed;
    * `fixture_takes_values` — it has the last value of every kind.
-/
import Homestead.Proofs.World.DecayList
import Homestead.Proofs.World.Reached
import Homestead.Proofs.World.Register
import Homestead.Proofs.World.Twins

namespace Homestead

open Record

/-! ## §1. What a record names. -/

/-- The value that an update names for a kind: a number, a text that is not empty, or a time. -/
def Record.Update.named? (k : Kind) : Update → Option AttributeValue
  | .number k' n => if k = k' ∧ k'.isNumber then some (.number n) else none
  | .text k' s => if k = k' ∧ k'.isText ∧ s ≠ "" then some (.text s) else none
  | .duration n => if k = .duration then some (.number (max n 0)) else none
  | _ => none

/-- The last value that a record names for a kind. -/
def Record.lastNamed? (r : Record) (k : Kind) : Option AttributeValue :=
  r.updates.reverse.findSome? (Update.named? k)

/-- The kinds that fields name are none of those that the sub type, the decay or a corpse is kept
under. -/
theorem Record.Tag.Makes.named {tag : Tag} {u : Update} {k : Kind} {v : AttributeValue}
    (h : tag.Makes u) (hNamed : u.named? k = some v) :
    k ≠ .charges ∧ k ≠ .fluidType ∧ k ≠ .decayState ∧ k ≠ .corpseOwner := by
  -- The tags with a kind are gone through one by one; none has any of the four.
  have hDirect : ∀ {k' : Kind}, tag.kind? = some k' → k = k' →
      k ≠ .charges ∧ k ≠ .fluidType ∧ k ≠ .decayState ∧ k ≠ .corpseOwner := by
    rintro k' hTag rfl
    cases tag <;> first
      | cases hTag
        done
      | (injection hTag with hTag; subst hTag; decide)
  cases h with
  | number n hTag => exact hDirect hTag (Option.ite_none_right_eq_some.1 hNamed).1.1
  | text s hTag => exact hDirect hTag (Option.ite_none_right_eq_some.1 hNamed).1.1
  | doorId n _ =>
    rw [(Option.ite_none_right_eq_some.1 hNamed).1.1]
    decide
  | duration n _ =>
    rw [(Option.ite_none_right_eq_some.1 hNamed).1]
    decide
  | _ => cases hNamed

/-- No field of a record names charges, fluids, the state of decay or the owner of a corpse. -/
theorem Record.FromFields.named {r : Record} (hFields : r.FromFields) {k : Kind}
    {v : AttributeValue} (hNamed : r.lastNamed? k = some v) :
    k ≠ .charges ∧ k ≠ .fluidType ∧ k ≠ .decayState ∧ k ≠ .corpseOwner := by
  obtain ⟨u, hu, hv⟩ := List.exists_of_findSome?_eq_some hNamed
  obtain ⟨tag, hMakes⟩ := hFields u (List.mem_reverse.1 hu)
  exact hMakes.named hv

namespace Item

variable {c : Catalog} {i i' : Item} {r : Record} {k : Kind} {v : AttributeValue}

/-- What an update names is what it writes. -/
theorem entryWrites_eq_named? {m : SubTypeMeaning} (hCharges : k ≠ .charges)
    (hFluid : k ≠ .fluidType) (hState : k ≠ .decayState) (u : Update) :
    entryWrites m k u = (u.named? k).map fun v => (true, some v) := by
  unfold entryWrites Update.entry? Update.named?
  cases u with
  -- The sort writes charges or the fluid, which are not asked for here.
  | subType n =>
    cases m with
    | count => rfl
    | fluid => simp [SubTypeMeaning.kind?, hFluid]
    | charges => simp [SubTypeMeaning.kind?, hCharges]
  | number k' n => by_cases hk : k = k' <;> by_cases hNumber : k'.isNumber <;> simp [hk, hNumber]
  | text k' s => by_cases hk : k = k' <;> by_cases hText : k'.isText ∧ s ≠ "" <;> simp [hk, hText]
  | duration n => by_cases hk : k = .duration <;> simp [hk]
  | decayPending => simp [hState]
  | _ => rfl

/-- **The last value that a record names is there**, whatever item the updates are made to. -/
theorem entry_applyAll_named (c : Catalog) (i : Item) (hFields : r.FromFields)
    (hNamed : r.lastNamed? k = some v) : (i.applyAll c r.updates).entry k = (true, some v) := by
  obtain ⟨hCharges, hFluid, hState, _⟩ := hFields.named hNamed
  have hWrites : entryWrites (i.meaning c) k
      = Option.map (fun v => (true, some v)) ∘ Update.named? k :=
    funext fun u => entryWrites_eq_named? hCharges hFluid hState u
  -- The last update that writes the kind is the last one that names it.
  have hFound : r.updates.reverse.findSome? (entryWrites (i.meaning c) k)
      = some (true, some v) := by
    rw [hWrites, ← List.map_findSome?]
    exact congrArg (Option.map fun v => (true, some v)) hNamed
  have hLast := (sees_entry (c := c) (i.meaning c) k).last r.updates
  rw [hFound] at hLast
  exact hLast

/-! ## §2. What becomes of the fixture. -/

/-- An item to which the updates of a record are made, and which has the type of the record then. -/
def bound (c : Catalog) (r : Record) (i : Item) : Item :=
  if i.typeId = r.typeId then i.applyAll c r.updates
  else (i.applyAll c r.updates).become c r.typeId

/-- An item that has a type, which it gets if it has another one. -/
def retyped (c : Catalog) (newType : TypeId) (i : Item) : Item :=
  if i.typeId = newType then i else i.become c newType

/-- What a record makes of an item: its attributes first, and then its type. -/
theorem bound_eq (c : Catalog) (r : Record) (i : Item) :
    i.bound c r = (i.applyAll c r.updates).retyped c r.typeId := by
  rw [bound, retyped, typeId_applyAll]

/-- A bound item is of the type of its record. -/
theorem typeId_bound (c : Catalog) (r : Record) (i : Item) : (i.bound c r).typeId = r.typeId := by
  unfold bound
  split_ifs with hSame
  · rw [typeId_applyAll, hSame]
  · exact typeId_become _ c r.typeId

/-- **What the record names is there** when the item has the type of the record, unless it is a time
that starts anew or ends with the other type. -/
theorem entry_bound {t : ItemType} (hFields : r.FromFields) (hNamed : r.lastNamed? k = some v)
    (hType : c.get? r.typeId = some t) (i : Item) :
    (i.bound c r).entry k
      = if k ≠ .duration ∨ i.typeId = r.typeId ∨ i.GoesOn c t then (true, some v)
        else if t.KnowsDecay then (true, some (.number t.duration)) else (false, none) := by
  obtain ⟨_, _, hState, hOwner⟩ := hFields.named hNamed
  have hMade := entry_applyAll_named c i hFields hNamed
  have hGoes : (i.applyAll c r.updates).GoesOn c t ↔ i.GoesOn c t := by
    unfold GoesOn standsStill
    rw [typeId_applyAll]
  unfold bound
  by_cases hSame : i.typeId = r.typeId
  · rw [if_pos hSame, if_pos (.inr (.inl hSame)), hMade]
  · rw [if_neg hSame]
    -- Another type touches the time, the state of the decay and the owner of a corpse; of these a
    -- record names the time only.
    by_cases hTime : k = .duration
    · subst hTime
      rw [entry_become_time _ hType (has_of_entry hMade) (.inl rfl), hMade]
      simp only [hGoes, hSame, ne_eq, not_true_eq_false, false_or, if_true]
    · rw [entry_become_other _ hType hOwner hTime hState, hMade, if_pos (.inl hTime)]

/-- The items have the same type and the same attributes. -/
structure Matches (i i' : Item) : Prop where
  /-- The type is the same. -/
  typeId : i'.typeId = i.typeId
  /-- All attributes are the same. -/
  entry : ∀ k, i'.entry k = i.entry k

/-- The count of missing entries does not matter. -/
theorem matches_setPending (i : Item) (n : UInt32) :
    i.Matches { i with variant := i.variant.setPending n } :=
  ⟨rfl, fun _ => rfl⟩

/-- Items that match still do when both become the same type. -/
theorem Matches.become (h : i.Matches i') {t : ItemType} {newType : TypeId}
    (hType : c.get? newType = some t) : (i.become c newType).Matches (i'.become c newType) where
  typeId := by rw [typeId_become, typeId_become]
  entry k := by
    have hAnew : i'.StartsAnew c t ↔ i.StartsAnew c t := by
      unfold StartsAnew standsStill
      rw [h.typeId, has_eq_of_entry (h.entry .duration)]
    rw [entry_become _ hType, entry_become _ hType]
    simp only [hAnew, h.entry]

/-- Items that match still do when both take on the type of a record. -/
theorem Matches.retyped (h : i.Matches i') {t : ItemType} {newType : TypeId}
    (hType : c.get? newType = some t) : (i.retyped c newType).Matches (i'.retyped c newType) := by
  unfold Item.retyped
  rw [h.typeId]
  split_ifs
  · exact h
  · exact h.become hType

/-- The item is finished as soon as its time is started. -/
def RunsOut (c : Catalog) (i : Item) : Prop :=
  i.mayStart c = true ∧ i.duration ≤ 0

instance (c : Catalog) (i : Item) : Decidable (i.RunsOut c) :=
  inferInstanceAs (Decidable (_ ∧ _))

/-- Of two items that match, both run out or neither. -/
theorem Matches.runsOut (h : i.Matches i') : i'.RunsOut c ↔ i.RunsOut c := by
  unfold RunsOut mayStart duration
  rw [h.typeId, decayState_eq_of_entry (h.entry .decayState),
    number_eq_of_entry (h.entry .duration)]

/-- Starting the time of an item that does not run out changes the state of its decay at most. -/
theorem alike_started (h : ¬ i.RunsOut c) : i.Alike (i.started c) := by
  unfold started
  split_ifs with hMay hOver
  · exact Alike.refl i
  · rw [Bool.not_eq_true, Bool.not_eq_false'] at hMay
    exact absurd ⟨hMay, hOver⟩ h
  · exact alike_setDecayState i .running

end Item

namespace World

/-! ## §3. Registering an item. -/

/-- What reaches an item after a step that lets nothing lie deeper reached it before. -/
theorem Thinner.reaches {w w' : World} (h : Thinner w w') {j id : ItemId}
    (hReach : w'.graph.Reaches j id) : w.graph.Reaches j id :=
  Relation.ReflTransGen.mono h _ _ hReach

/-- Registering some items leaves an item alone that lies in none of them, if that is so for each
one. -/
theorem item?_registerEach {levels : Nat} {j : ItemId}
    (hOne : ∀ (w : World) (id : ItemId), ¬ w.graph.Reaches j id →
      (registerWithin levels w id).graph.item? j = w.graph.item? j)
    (ids : List ItemId) {w : World} (hApart : ∀ id ∈ ids, ¬ w.graph.Reaches j id) :
    (ids.foldl (registerWithin levels) w).graph.item? j = w.graph.item? j := by
  induction ids generalizing w with
  | nil => rfl
  | cons id ids ih =>
    obtain ⟨hFirst, hRest⟩ := List.forall_mem_cons.1 hApart
    have hThinner := thinner_registerWithin levels w id
    rw [List.foldl_cons, ih fun other hMem hReach => hRest other hMem (hThinner.reaches hReach),
      hOne w id hFirst]

/-- Registering an item leaves all items alone that do not lie in it. -/
theorem item?_registerWithin (levels : Nat) {w : World} {id j : ItemId}
    (hApart : ¬ w.graph.Reaches j id) :
    (registerWithin levels w id).graph.item? j = w.graph.item? j := by
  induction levels generalizing w id with
  | zero => rfl
  | succ levels ih =>
    rw [registerWithin]
    generalize ((w.graph.item? id).map (·.variant.sleeper)).getD 0 = sleeper
    have hThinner := thinner_registered w id sleeper
    have hne : j ≠ id := by
      rintro rfl
      exact hApart .refl
    -- What lies in a child of the item lies in the item.
    rw [item?_registerEach (fun _ _ => ih) _ fun child hMem hReach =>
        hApart ((hThinner.reaches hReach).tail (hThinner child id hMem)),
      (turns_startDecay _ id).item?, if_neg hne, graph_setSleeper]

/-- **An item that is registered** is started, and what it holds does not count. -/
theorem item?_register {w : World} (hw : w.graph.Consistent) {id : ItemId} {i : Item}
    (hi : w.graph.item? id = some i) :
    (w.register id).graph.item? id = some (i.started w.catalog) := by
  obtain ⟨levels, hLevels⟩ : ∃ levels, w.graph.size = levels + 1 := by
    obtain ⟨n, hn, _⟩ := Option.map_eq_some_iff.1 hi
    have hMem : id ∈ w.graph.ids := Graph.mem_ids.2 (by rw [hn]; rfl)
    have hPos := Finset.card_pos.2 ⟨id, hMem⟩
    rw [Graph.card_ids] at hPos
    exact ⟨w.graph.size - 1, by omega⟩
  unfold register
  rw [hLevels, registerWithin]
  generalize ((w.graph.item? id).map (·.variant.sleeper)).getD 0 = sleeper
  have hThinner := thinner_registered w id sleeper
  -- The item does not lie in what lies in it.
  rw [item?_registerEach (fun _ _ => item?_registerWithin levels) _ fun child hMem hReach =>
      hw.not_lies_self id (Relation.TransGen.tail' (hThinner.reaches hReach)
        (hThinner child id hMem)),
    (turns_startDecay _ id).item?, if_pos rfl, graph_setSleeper, catalog_setSleeper, hi,
    Option.map_some]

/-! A fixture gets the type of its record, if it has another one. -/

/-- An item that has the type of its record is not changed by it. -/
theorem retyped_of_typeId {w : World} {id : ItemId} {i : Item} (hi : w.graph.item? id = some i)
    {newType : TypeId} (hSame : i.typeId = newType) : w.retyped id newType = w := by
  unfold retyped
  rw [hi, Option.any_some, if_neg (by simpa using hSame)]

/-- The item takes on the type of its record. -/
theorem item?_retyped {w : World} {id : ItemId} {i : Item} (hi : w.graph.item? id = some i)
    (newType : TypeId) :
    (w.retyped id newType).graph.item? id = some (i.retyped w.catalog newType) := by
  by_cases hSame : i.typeId = newType
  · rw [retyped_of_typeId hi hSame, hi, Item.retyped, if_pos hSame]
  · unfold retyped
    rw [hi, Option.any_some, if_pos (by simpa using hSame), Item.retyped, if_neg hSame]
    show (w.graph.retype w.catalog id newType).item? id = _
    rw [Graph.item?_retype, if_pos rfl, hi, Option.map_some]

/-- Taking on a type inside of a region is confined to it. -/
theorem confined_retyped {w : World} {id : ItemId} {S : ItemId → Prop} {T : Position → Prop}
    (hRegion : w.graph.Region S) (hid : S id) (newType : TypeId) :
    Graph.Confined S T w.graph (w.retyped id newType).graph := by
  unfold retyped
  split
  · exact Graph.confined_retype hRegion hid w.catalog newType
  · exact .refl hRegion T

namespace Restoring

/-! ## §4. Placing a record. -/

variable {s s' : Restoring} {p : Position} {r : Record} {id : ItemId} {i : Item}

/-- An item has been given the contents of a record, if the record has any to give. -/
structure Given (id : ItemId) (i : Item) (r : Record) (w w' : World) : Prop where
  /-- The world is kept. -/
  keeps : Keeps w w'
  /-- The item differs in what is still to come. -/
  item : ∃ k, w'.graph.item? id = some { i with variant := i.variant.setPending k }
  /-- In the item there is what is built of the contents. -/
  inner : ∀ rs, r.children = some rs → ∃ ts, (buildAll w.catalog rs).1 = .ok ts
    ∧ w'.graph.ShowsAll (w'.graph.contents (.item id)) ts
  /-- What does not lie in the item is as before. -/
  confined : ∀ (S : ItemId → Prop) (T : Position → Prop), w.graph.Region S → S id →
    Graph.Confined S T w.graph w'.graph

/-- **Contents make way for those of a record**, or stay if the record has none. -/
theorem replaceContents_gives (hs : s.world.Sound) (hFits : r.Fits s.world.catalog) {n : Node}
    (hn : s.world.graph.node? id = some n)
    (hHolds : r.children.isSome → n.item.isContainer = true) :
    ∃ tally w, replaceContents id r s = (.ok (), ({ s with world := w }).count tally)
      ∧ Given id n.item r s.world w := by
  -- Without contents on record nothing is changed.
  cases hChildren : r.children with
  | none =>
    have hSame : n.item.variant.setPending (n.item.variant.pending.getD 0) = n.item.variant := by
      cases n.item.variant <;> rfl
    unfold replaceContents
    rw [hChildren]
    refine ⟨0, s.world, rfl, Keeps.refl _, ⟨n.item.variant.pending.getD 0, ?_⟩, ?_, ?_⟩
    · rw [hSame]
      exact Graph.item?_eq_some.2 ⟨n, hn, rfl⟩
    · rw [hChildren]
      exact fun rs h => by cases h
    · exact fun S T hRegion _ => .refl hRegion T
  | some rs =>
    obtain ⟨tally, g', hReplace, hExchanged⟩ :=
      replaceContents_eq hs hFits hChildren hn (hHolds (by rw [hChildren]; rfl))
    refine ⟨tally, _, hReplace, ?_, hExchanged.item, ?_, hExchanged.confined⟩
    · refine keeps_withGraph (fun _ => hExchanged.consistent) ?_ ?_
      · exact fun hw => hExchanged.typed hw.typed
      · exact fun q => congrArg Option.isSome (Graph.tile?_eq_of_tiles hExchanged.tiles q)
    · intro rs' h
      obtain rfl := Option.some_inj.1 (hChildren.symm.trans h)
      exact hExchanged.inner

/-- A fixture has been given what a record says, and its time has not been started yet. -/
structure Readied (c : Catalog) (id : ItemId) (i : Item) (r : Record) (w w' : World) : Prop where
  /-- The world is kept. -/
  keeps : Keeps w w'
  /-- The item has the updates of the record and its type; what is still to come to it may
  differ. -/
  item : ∃ k, w'.graph.item? id = some
    (({ i.applyAll c r.updates with
        variant := (i.applyAll c r.updates).variant.setPending k } : Item).retyped c r.typeId)
  /-- In an item that keeps its type there is what is built of the contents of the record. -/
  inner : i.typeId = r.typeId → ∀ rs, r.children = some rs → ∃ ts, (buildAll c rs).1 = .ok ts
    ∧ w'.graph.ShowsAll (w'.graph.contents (.item id)) ts
  /-- What does not lie in the item is as before. -/
  confined : ∀ (S : ItemId → Prop) (T : Position → Prop), w.graph.Region S → S id →
    Graph.Confined S T w.graph w'.graph

/-- A readied fixture matches what its record makes of it. -/
theorem Readied.matches {w w' : World} {c : Catalog} (h : Readied c id i r w w')
    {t : ItemType} (hType : c.get? r.typeId = some t) :
    ∃ j, w'.graph.item? id = some j ∧ (i.bound c r).Matches j := by
  obtain ⟨k, hItem⟩ := h.item
  refine ⟨_, hItem, ?_⟩
  rw [Item.bound_eq]
  exact (Item.matches_setPending _ k).retyped hType

/-- **A record that goes to a fixture**: the fixture is given what the record says, and is
registered. -/
theorem place_fixture (hs : s.world.Sound) (hFits : r.Fits s.world.catalog)
    (hMoves : moves? s.world.catalog r = some false)
    (hFixture : s.world.fixture? p s.claimed r.typeId = some id)
    (hi : s.world.graph.item? id = some i) :
    ∃ tally w, place p r s = (.ok (), ({ s with
        world := w.register id
        report := { s.report with matched := s.report.matched + 1 }
        claimed := s.claimed ++ [id] }).count tally)
      ∧ Readied s.world.catalog id i r s.world w := by
  obtain ⟨_, _, i', hi', hBound⟩ := fixture?_eq_some hFixture
  obtain rfl := Option.some_inj.1 (hi.symm.trans hi')
  obtain ⟨n, hn, rfl⟩ := Graph.item?_eq_some.1 hi
  -- First the updates, then the contents, then the type.
  have hUpdated := keeps_updated s.world id r
  have hHolds : r.children.isSome →
      (n.item.applyAll s.world.catalog r.updates).isContainer = true := by
    intro hChildren
    rw [isContainer_applyAll]
    exact isContainer_of_fixture? hs hFits (known_of_moves? hMoves) hChildren hi hBound
  obtain ⟨tally, w, hReplace, hGiven⟩ := replaceContents_gives
    (s := { s with world := s.world.updated id r }) (hUpdated.sound hs) hFits
    (node?_updated hn r) hHolds
  have hKeeps : Keeps s.world w := hUpdated.trans hGiven.keeps
  obtain ⟨k, hItem⟩ := hGiven.item
  refine ⟨tally, w.retyped id r.typeId, ?_, ?_⟩
  · rw [place_of_fixture hMoves hFixture, bindFixture_eq hReplace]
    rfl
  constructor
  case keeps => exact hKeeps.trans (keeps_retyped w id r.typeId)
  case item => exact ⟨k, by rw [item?_retyped hItem, hKeeps.catalog]⟩
  case inner =>
    intro hSame rs hChildren
    have hStays : w.retyped id r.typeId = w :=
      retyped_of_typeId hItem ((Item.typeId_applyAll _ _ _).trans hSame)
    rw [hStays]
    exact hGiven.inner rs hChildren
  case confined =>
    intro S T hRegion hid
    have hFields : Graph.Confined S T s.world.graph (s.world.updated id r).graph := by
      rw [graph_updated]
      exact Graph.confined_update hRegion hid _
    have hContents := hGiven.confined S T hFields.region hid
    exact (hFields.trans hContents).trans (confined_retyped hContents.region hid r.typeId)

/-- **A fixture once a record is placed**: it has the updates of the record and its type, and its
time is started. -/
theorem item?_place_fixture (hs : s.world.Sound) (hFits : r.Fits s.world.catalog)
    (hMoves : moves? s.world.catalog r = some false)
    (hFixture : s.world.fixture? p s.claimed r.typeId = some id)
    (hi : s.world.graph.item? id = some i) :
    ∃ s' i', place p r s = (.ok (), s') ∧ (i.bound s.world.catalog r).Matches i'
      ∧ s'.world.graph.item? id = some (i'.started s.world.catalog) := by
  obtain ⟨t, hType, _⟩ := type_of_moves? hMoves
  obtain ⟨tally, w, hPlace, hReadied⟩ := place_fixture hs hFits hMoves hFixture hi
  obtain ⟨j, hj, hMatches⟩ := hReadied.matches hType
  have hStarted := item?_register (hReadied.keeps.sound hs).consistent hj
  rw [hReadied.keeps.catalog] at hStarted
  exact ⟨_, j, hPlace, hMatches, hStarted⟩

/-- **What a fixture takes from a record**: in any sound world a record that was read, and that goes
to an item of the map, is placed, and unless the item is finished there and then it has the type of
the record, and of every kind that the record names the last value, as an item has that is built
from the record.  A time is the one exception: if the item had another type, and its time does not
go on in the new one, it starts anew or is gone. -/
theorem fixture_takes_values (hs : s.world.Sound) {reader reader' : Stream.Reader}
    (hRead : decode s.world.catalog reader = .ok (r, reader'))
    (hMoves : moves? s.world.catalog r = some false)
    (hFixture : s.world.fixture? p s.claimed r.typeId = some id)
    (hi : s.world.graph.item? id = some i) {t : ItemType}
    (hType : s.world.catalog.get? r.typeId = some t)
    (hLasts : ¬ (i.bound s.world.catalog r).RunsOut s.world.catalog) :
    ∃ s' i' new, place p r s = (.ok (), s') ∧ s'.world.graph.item? id = some i'
      ∧ i'.typeId = r.typeId ∧ r.newItem? s.world.catalog = some new
      ∧ ∀ k v, r.lastNamed? k = some v → new.entry k = (true, some v)
        ∧ i'.entry k
          = if k ≠ .duration ∨ i.typeId = r.typeId ∨ i.GoesOn s.world.catalog t then
              (true, some v)
            else if t.KnowsDecay then (true, some (.number t.duration)) else (false, none) := by
  have hFits := fits_of_decode hRead
  have hFields : r.FromFields := (fromFields_givenByReading s.world.catalog).decode hRead
  obtain ⟨s', b, hPlace, hMatches, hItem⟩ := item?_place_fixture hs hFits hMoves hFixture hi
  -- The start of time changes the state of decay only, which no field names.
  have hAlike := Item.alike_started ((not_congr hMatches.runsOut).2 hLasts)
  have hKnown := known_of_moves? hMoves
  obtain ⟨new, hNew⟩ : ∃ new, s.world.catalog.usable? r.typeId = some new := by
    rw [hFits.known_eq] at hKnown
    exact Option.isSome_iff_exists.1 hKnown
  refine ⟨s', b.started s.world.catalog, (Item.ofType new 0).applyAll s.world.catalog r.updates,
    hPlace, hItem, ?_, ?_, ?_⟩
  · rw [hAlike.typeId, hMatches.typeId, Item.typeId_bound]
  · rw [newItem?, if_pos hKnown, Item.create?, hNew]
    rfl
  · intro k v hNamed
    obtain ⟨_, _, hState, _⟩ := hFields.named hNamed
    refine ⟨Item.entry_applyAll_named _ _ hFields hNamed, ?_⟩
    rw [hAlike.entry k hState, hMatches.entry, Item.entry_bound hFields hNamed hType]

end Restoring

end World

/-! ## §5. A gate on a door. -/

/-- A gate, which becomes a door after ten seconds. -/
def gate : ItemType where
  id := 201
  group := .door
  decaySeconds := 10
  decayTo := some 200

/-- A catalog of doors and gates. -/
def gateCatalog : Catalog where
  types := (Catalog.empty.types.insert 200 { id := 200, group := .door }).insert 201 gate
  keyed := Catalog.keyed_insert
    { types := Catalog.empty.types.insert 200 { id := 200, group := .door }
      keyed := Catalog.empty.keyed_insert { id := 200, group := .door } } gate

/-- A house with a door. -/
def doorHouse : Blueprint where
  houses := [{ id := 1, name := "", entry := .zero }]
  tiles := [⟨.zero, some 1, [.mk { typeId := 200 } []]⟩]

/-- What was stored of a gate that has half of its time left and a description. -/
def storedGate : List UInt8 :=
  [201, 0, 16, 136, 19, 0, 0, 7, 2, 0, 72, 105, 0]

/-- What is read of that. -/
def gateRead : Record × Stream.Reader :=
  (decode gateCatalog ⟨0, storedGate⟩).toOption.getD (default, ⟨0, []⟩)

/-- The octets of the stored gate are decoded to its record. -/
theorem decode_storedGate : decode gateCatalog ⟨0, storedGate⟩ = .ok (gateRead.1, gateRead.2) := by
  have hReads : (decode gateCatalog ⟨0, storedGate⟩).toOption.isSome = true := by
    decide +kernel
  unfold gateRead
  exact eq_ok_of_isSome _ (default, ⟨0, []⟩) hReads

namespace World.Restoring

/-- The house, before the gate comes back. -/
def doorAlone : Restoring where
  world := (ofBlueprint gateCatalog doorHouse).1.toOption.getD {}

/-- The world with one door is reached. -/
theorem reached_doorAlone : Reached gateCatalog doorHouse doorAlone.world := by
  have hBuilds : (ofBlueprint gateCatalog doorHouse).1.toOption.isSome = true := by
    decide +kernel
  refine .drawn ?_
  unfold doorAlone
  exact eq_ok_of_isSome (ofBlueprint gateCatalog doorHouse).1 ({} : World) hBuilds

/-- The door becomes a gate and takes the description. -/
theorem fixture_takes_values_gate :
    Reached gateCatalog doorHouse doorAlone.world
      ∧ decode gateCatalog ⟨0, storedGate⟩ = .ok (gateRead.1, gateRead.2)
      ∧ moves? doorAlone.world.catalog gateRead.1 = some false
      ∧ doorAlone.world.fixture? .zero doorAlone.claimed gateRead.1.typeId = some 0
      ∧ ∃ s' i', place .zero gateRead.1 doorAlone = (.ok (), s')
        ∧ s'.world.graph.item? 0 = some i' ∧ i'.typeId = gateRead.1.typeId
        ∧ i'.entry .description = (true, some (.text "Hi")) := by
  have hCatalog : doorAlone.world.catalog = gateCatalog := reached_doorAlone.catalog
  have hMoves : moves? doorAlone.world.catalog gateRead.1 = some false := by
    decide +kernel
  have hFixture : doorAlone.world.fixture? .zero doorAlone.claimed gateRead.1.typeId = some 0 := by
    decide +kernel
  have hItem : doorAlone.world.graph.item? 0
      = some ((doorAlone.world.graph.item? 0).getD default) := by
    decide +kernel
  have hType : doorAlone.world.catalog.get? gateRead.1.typeId = some gate := by
    decide +kernel
  have hLasts : ¬ (((doorAlone.world.graph.item? 0).getD default).bound doorAlone.world.catalog
      gateRead.1).RunsOut doorAlone.world.catalog := by
    decide +kernel
  have hNamed : gateRead.1.lastNamed? .description = some (.text "Hi") := by
    decide +kernel
  obtain ⟨s', i', _, hPlace, hHere, hNew, _, hValues⟩ := fixture_takes_values reached_doorAlone.sound
    (hCatalog ▸ decode_storedGate) hMoves hFixture hItem hType hLasts
  -- The description that is read is not about time, so it is taken as it is.
  have hValue := (hValues .description _ hNamed).2
  rw [if_pos (.inl (by decide))] at hValue
  exact ⟨reached_doorAlone, decode_storedGate, hMoves, hFixture, s', i', hPlace, hHere, hNew, hValue⟩

/-- The gate that the door has become starts with ten seconds, though five were stored, and a gate
that is built anew from the record has five. -/
theorem gate_on_door_starts_anew :
    gateRead.1.lastNamed? .duration = some (.number 5000)
      ∧ (gateRead.1.newItem? gateCatalog).map (·.duration) = some 5000
      ∧ ((place .zero gateRead.1 doorAlone).2.world.graph.item? 0).map (·.typeId) = some 201
      ∧ ((place .zero gateRead.1 doorAlone).2.world.graph.item? 0).map (·.duration)
        = some 10000 := by
  decide +kernel

end World.Restoring

end Homestead
