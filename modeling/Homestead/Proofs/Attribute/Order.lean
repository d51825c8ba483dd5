/-
  Homestead.Proofs.Attribute.Order
  ────────────────────────────────
  **WHERE THE ENTRY OF A KIND STANDS.**

  A map of attributes knows nothing of an order, but the entries of a table
  have one: they stand in the order in which their kinds were first stored
  since they were last removed.  A value that is stored again stays where
  the old one stood; one that is removed and stored anew comes to the end.

  Main results:
    * `AttributeEdit.Since` — the edit that a kind has been there since;
    * `Represents.ordered` — an edit keeps the entries in this order;
    * `table_is_finite_map` — what a table is after any edits.
-/
import Homestead.Proofs.Attribute.Meaning

namespace Homestead

/-! ## §1. How long a kind has been there. -/

namespace AttributeEdit

/-- A kind has been there since the edit with a number: it stores a value under the kind, the value
is not removed later, and whatever was stored before has been removed before. -/
structure Since (edits : List AttributeEdit) (k : Kind) (i : Nat) : Prop where
  /-- The edit stores a value. -/
  stored : ∃ e, edits[i]? = some e ∧ e.stores k = true
  /-- It is not removed later. -/
  kept : ∀ j e, i ≤ j → edits[j]? = some e → e.removes k = false
  /-- Values that were stored before have been removed. -/
  first : ∀ j e, j < i → edits[j]? = some e → e.stores k = true →
    ∃ l e', j < l ∧ l < i ∧ edits[l]? = some e' ∧ e'.removes k = true

variable {edits : List AttributeEdit} {e : AttributeEdit} {k : Kind} {i j : Nat}

/-- What stores a kind does not remove it. -/
theorem removes_eq_false_of_stores (h : e.stores k = true) : e.removes k = false := by
  cases e with
  | remove j => cases h
  | _ => rfl

/-- A kind has been there since an edit of the list. -/
theorem Since.lt_length (h : Since edits k i) : i < edits.length := by
  obtain ⟨e, he, _⟩ := h.stored
  exact (List.getElem?_eq_some_iff.1 he).1

/-- A kind has been there since one edit only. -/
theorem Since.unique (h : Since edits k i) (h' : Since edits k j) : i = j := by
  have hNotLess : ∀ {i j}, Since edits k i → Since edits k j → ¬ i < j := by
    intro i j h h' hLess
    obtain ⟨e, he, hStores⟩ := h.stored
    obtain ⟨l, e', hAfter, _, he', hRemoves⟩ := h'.first i e hLess he hStores
    rw [h.kept l e' (Nat.le_of_lt hAfter) he'] at hRemoves
    cases hRemoves
  exact Nat.le_antisymm (Nat.not_lt.1 (hNotLess h' h)) (Nat.not_lt.1 (hNotLess h h'))

theorem getElem?_concat_of_lt (h : i < edits.length) (e : AttributeEdit) :
    (edits ++ [e])[i]? = edits[i]? :=
  List.getElem?_append_left h

/-- An edit that does not remove the kind leaves it where it is. -/
theorem Since.concat (h : Since edits k i) (he : e.removes k = false) :
    Since (edits ++ [e]) k i := by
  have hi := h.lt_length
  constructor
  · rw [getElem?_concat_of_lt hi]
    exact h.stored
  · intro j e' hj he'
    -- The edits after the storing one are old ones, or the last.
    rcases Nat.lt_or_ge j edits.length with hOld | hNew
    · rw [getElem?_concat_of_lt hOld] at he'
      exact h.kept j e' hj he'
    · rw [List.getElem?_append_right hNew] at he'
      obtain rfl := List.mem_singleton.1 (List.mem_of_getElem? he')
      exact he
  · intro j e' hj he' hStores
    rw [getElem?_concat_of_lt (hj.trans hi)] at he'
    obtain ⟨l, e'', hAfter, hBefore, he'', hRemoves⟩ := h.first j e' hj he' hStores
    refine ⟨l, e'', hAfter, hBefore, ?_, hRemoves⟩
    rw [getElem?_concat_of_lt (hBefore.trans hi)]
    exact he''

/-- **A kind that was not there is there since the edit that stores it.**  If it was stored before,
the first of the edits since which it has not been removed would be one that it has been there
since. -/
theorem since_concat (hNot : ∀ i, ¬ Since edits k i) (he : e.stores k = true) :
    Since (edits ++ [e]) k edits.length := by
  -- Whatever was stored is removed later.
  have hGone : ∀ (j : Nat) (e' : AttributeEdit), edits[j]? = some e' → e'.stores k = true →
      ∃ (l : Nat) (e'' : AttributeEdit), j < l ∧ edits[l]? = some e'' ∧ e''.removes k = true := by
    intro j
    -- The induction is on the place of the edit: what is known of earlier ones makes it the first.
    induction j using Nat.strong_induction_on with
    | _ j ih =>
      intro e' he' hStores
      by_contra hKept
      refine hNot j ⟨⟨e', he', hStores⟩, ?_, ?_⟩
      · intro l e'' hl he''
        rcases Nat.eq_or_lt_of_le hl with rfl | hAfter
        · obtain rfl := Option.some_inj.1 (he'.symm.trans he'')
          exact removes_eq_false_of_stores hStores
        · by_contra hRemoves
          exact hKept ⟨l, e'', hAfter, he'', Bool.eq_true_of_not_eq_false hRemoves⟩
      · intro l e'' hl he'' hStores'
        obtain ⟨r, e₃, hAfter, he₃, hRemoves⟩ := ih l hl e'' he'' hStores'
        refine ⟨r, e₃, hAfter, ?_, he₃, hRemoves⟩
        rcases Nat.lt_trichotomy r j with hBefore | rfl | hLate
        · exact hBefore
        · obtain rfl := Option.some_inj.1 (he'.symm.trans he₃)
          rw [removes_eq_false_of_stores hStores] at hRemoves
          cases hRemoves
        · exact absurd ⟨r, e₃, hLate, he₃, hRemoves⟩ hKept
  constructor
  · exact ⟨e, by rw [List.getElem?_append_right (Nat.le_refl _), Nat.sub_self]; rfl, he⟩
  · intro j e' hj he'
    rw [List.getElem?_append_right hj] at he'
    obtain rfl := List.mem_singleton.1 (List.mem_of_getElem? he')
    exact removes_eq_false_of_stores he
  · intro j e' hj he' hStores
    rw [getElem?_concat_of_lt hj] at he'
    obtain ⟨l, e'', hAfter, he'', hRemoves⟩ := hGone j e' he' hStores
    have hl : l < edits.length := (List.getElem?_eq_some_iff.1 he'').1
    exact ⟨l, e'', hAfter, hl, (getElem?_concat_of_lt hl e).trans he'', hRemoves⟩

/-- An edit that is not the last one is the same without the last one. -/
theorem Since.of_concat (h : Since (edits ++ [e]) k i) (hi : i < edits.length) :
    Since edits k i := by
  obtain ⟨e', he', hStores⟩ := h.stored
  rw [getElem?_concat_of_lt hi] at he'
  refine ⟨⟨e', he', hStores⟩, ?_, ?_⟩
  · intro j e'' hj he''
    have hLess := (List.getElem?_eq_some_iff.1 he'').1
    exact h.kept j e'' hj ((getElem?_concat_of_lt hLess e).trans he'')
  · intro j e'' hj he'' hStores'
    have hOld := (getElem?_concat_of_lt (hj.trans hi) e).trans he''
    obtain ⟨l, e₃, hAfter, hBefore, he₃, hRemoves⟩ := h.first j e'' hj hOld hStores'
    rw [getElem?_concat_of_lt (hBefore.trans hi)] at he₃
    exact ⟨l, e₃, hAfter, hBefore, he₃, hRemoves⟩

theorem getElem?_concat_length (edits : List AttributeEdit) (e : AttributeEdit) :
    (edits ++ [e])[edits.length]? = some e := by
  rw [List.getElem?_append_right (Nat.le_refl _), Nat.sub_self]
  rfl

/-- A kind is there after one more edit if the edit stores it, or leaves it where it was. -/
theorem exists_since_concat : (∃ i, Since (edits ++ [e]) k i)
    ↔ e.stores k = true ∨ e.removes k = false ∧ ∃ i, Since edits k i := by
  constructor
  · rintro ⟨i, h⟩
    have hi := h.lt_length
    rw [List.length_append, List.length_singleton] at hi
    -- The kind has been there since the last edit, or since one before it.
    rcases Nat.eq_or_lt_of_le (Nat.le_of_lt_succ hi) with rfl | hLess
    · obtain ⟨e', he', hStores⟩ := h.stored
      rw [getElem?_concat_length] at he'
      obtain rfl := Option.some_inj.1 he'
      exact .inl hStores
    · refine .inr ⟨?_, i, h.of_concat hLess⟩
      exact h.kept edits.length e (Nat.le_of_lt hLess) (getElem?_concat_length edits e)
  · rintro (hStores | ⟨hKept, i, h⟩)
    · by_cases hThere : ∃ i, Since edits k i
      · obtain ⟨i, h⟩ := hThere
        exact ⟨i, h.concat (removes_eq_false_of_stores hStores)⟩
      · exact ⟨edits.length, since_concat (fun i h => hThere ⟨i, h⟩) hStores⟩
    · exact ⟨i, h.concat hKept⟩

/-- The kinds that have been there since some edit, the one that has been there longest first. -/
structure Ordered (edits : List AttributeEdit) (kinds : List Kind) : Prop where
  /-- They have been there since some edit. -/
  since : ∀ k, k ∈ kinds ↔ ∃ i, Since edits k i
  /-- What stands in front has been there longer. -/
  order : kinds.Pairwise fun j k => ∃ x y, Since edits j x ∧ Since edits k y ∧ x < y

/-- Kinds that are not removed stand as they stood. -/
theorem Ordered.pairwise_concat {kinds rest : List Kind} (h : Ordered edits kinds)
    (hSub : rest.Sublist kinds) (hKept : ∀ k ∈ rest, e.removes k = false) :
    rest.Pairwise fun j k =>
      ∃ x y, Since (edits ++ [e]) j x ∧ Since (edits ++ [e]) k y ∧ x < y := by
  refine (h.order.sublist hSub).imp_of_mem ?_
  rintro j k hj hk ⟨x, y, hx, hy, hLess⟩
  exact ⟨x, y, hx.concat (hKept j hj), hy.concat (hKept k hk), hLess⟩

end AttributeEdit

/-! ## §2. The order of the entries. -/

namespace AttributeTable

open AttributeEdit

variable {t : AttributeTable} {m : AttributeMap} {edits : List AttributeEdit}

/-- **The entries stand in the order of the edits** that their kinds have been there since. -/
theorem Represents.ordered (h : t.Represents m) (hOrder : Ordered edits t.kinds)
    (e : AttributeEdit) : Ordered (edits ++ [e]) (t.edit e).kinds := by
  -- An edit puts one kind, removes one, or does nothing.
  cases h.effect e with
  | put k v _ hStores hRemoves hTable _ =>
    rw [hTable, kinds_put]
    have hSince : ∀ j, (∃ i, Since (edits ++ [e]) j i) ↔ j = k ∨ j ∈ t.kinds := by
      intro j
      rw [exists_since_concat, hStores, hRemoves, hOrder.since, decide_eq_true_iff]
      simp
    -- A kind that was there keeps its place; a new one comes last, and has been there since this
    -- edit.
    split_ifs with hk
    · refine ⟨?_, hOrder.pairwise_concat (List.Sublist.refl _) fun j _ => hRemoves j⟩
      intro j
      rw [hSince]
      exact ⟨.inr, fun hj => hj.elim (fun hj => hj ▸ hk) id⟩
    · constructor
      · intro j
        rw [hSince, List.mem_append, List.mem_singleton, or_comm]
      · refine List.pairwise_append.2 ⟨hOrder.pairwise_concat (List.Sublist.refl _)
          fun j _ => hRemoves j, List.pairwise_singleton _ k, ?_⟩
        intro j hj k' hk'
        rw [List.mem_singleton.1 hk']
        obtain ⟨x, hx⟩ := (hOrder.since j).1 hj
        refine ⟨x, edits.length, hx.concat (hRemoves j), ?_, hx.lt_length⟩
        refine since_concat (fun i hi => hk ((hOrder.since k).2 ⟨i, hi⟩)) ?_
        rw [hStores, decide_eq_true rfl]
  | remove k hEdit =>
    have hKinds : (t.edit e).kinds = t.kinds.erase k := by
      rw [hEdit]
      exact h.kinds_remove k
    have hRemoves : ∀ j, e.removes j = decide (k = j) := by
      rw [hEdit]
      exact fun j => rfl
    rw [hKinds]
    constructor
    · intro j
      rw [exists_since_concat, hRemoves, h.nodup.mem_erase_iff, hOrder.since, hEdit]
      simp [AttributeEdit.stores, eq_comm]
    · refine hOrder.pairwise_concat List.erase_sublist ?_
      intro j hj
      rw [hRemoves]
      exact decide_eq_false (Ne.symm (h.nodup.mem_erase_iff.1 hj).1)
  | nothing hStores hRemoves hTable _ =>
    rw [hTable]
    refine ⟨?_, hOrder.pairwise_concat (List.Sublist.refl _) fun j _ => hRemoves j⟩
    intro j
    rw [exists_since_concat, hStores, hRemoves, hOrder.since]
    simp

/-- The kinds of a table stand in the order in which they were stored. -/
theorem ordered_ofEdits (edits : List AttributeEdit) : Ordered edits (ofEdits edits).kinds := by
  induction edits using List.reverseRecOn with
  | nil =>
    refine ⟨fun k => ?_, List.Pairwise.nil⟩
    constructor
    · intro hk
      cases hk
    · -- Without edits nothing has been stored at any time.
      rintro ⟨i, hi⟩
      exact absurd hi.lt_length (Nat.not_lt_zero i)
  | append_singleton edits e ih =>
    have hTable : ofEdits (edits ++ [e]) = (ofEdits edits).edit e := List.foldl_append
    rw [hTable]
    exact (represents_ofEdits edits).ordered ih e

end AttributeTable

/-! ## §3. Items. -/

namespace Item

/-- The item after an edit of its attributes. -/
def editAttribute (i : Item) : AttributeEdit → Item
  | .number k n => i.setNumber k n.toInt
  | .increase k delta => i.increase k delta.toInt
  | .text k s => i.setText k s
  | .remove k => i.remove k

/-- The item with the attributes that edits give it when it has none. -/
def withAttributes (i : Item) (edits : List AttributeEdit) : Item :=
  edits.foldl editAttribute { i with attributes := none }

/-- Editing an attribute of an item edits its table and leaves its type. -/
theorem table_editAttribute (i : Item) (e : AttributeEdit) :
    (i.editAttribute e).table = i.table.edit e ∧ (i.editAttribute e).typeId = i.typeId := by
  cases e with
  | number k n => exact ⟨rfl, rfl⟩
  | increase k delta => exact ⟨rfl, rfl⟩
  | text k s => exact ⟨table_setText i k s, typeId_setText i k s⟩
  | remove k => exact ⟨table_remove i k, rfl⟩

/-- An item with attributes has the table that the edits make. -/
theorem table_withAttributes (i : Item) (edits : List AttributeEdit) :
    (i.withAttributes edits).table = .ofEdits edits
      ∧ (i.withAttributes edits).typeId = i.typeId := by
  induction edits using List.reverseRecOn with
  | nil => exact ⟨rfl, rfl⟩
  | append_singleton edits e ih =>
    have hItem : i.withAttributes (edits ++ [e]) = (i.withAttributes edits).editAttribute e :=
      List.foldl_append
    have hTable : AttributeTable.ofEdits (edits ++ [e]) = (AttributeTable.ofEdits edits).edit e :=
      List.foldl_append
    obtain ⟨hEdit, hType⟩ := (i.withAttributes edits).table_editAttribute e
    rw [hItem, hTable, hEdit, hType, ih.1, ih.2]
    exact ⟨rfl, rfl⟩

end Item

/-! ## §4. Tables. -/

/-- **A table is a finite map.**  After any edits a kind has its bit set just if it has one entry,
and clear just if it has none, and there are no other bits; number kinds have 64-bit numbers, and
text kinds have texts with something in them.  The entries stand in the order in which their kinds
were first stored since they were last removed.  What the table tells is what the map tells that
the edits make.  Items that have got their attributes by edits agree just if they have the same type
and the edits make the same map. -/
theorem table_is_finite_map (edits : List AttributeEdit) :
    let t := AttributeTable.ofEdits edits
    let m := AttributeMap.ofEdits edits
    (∀ k : Kind, (t.presence.getLsbD k.index = true ↔ t.kinds.count k = 1)
        ∧ (t.presence.getLsbD k.index = false ↔ t.kinds.count k = 0))
      ∧ (∀ k v, (k, v) ∈ t.entries → v.Fits k)
      ∧ (∀ k, k ∈ t.kinds ↔ ∃ i, AttributeEdit.Since edits k i)
      ∧ (t.kinds.Pairwise fun j k =>
        ∀ x y, AttributeEdit.Since edits j x → AttributeEdit.Since edits k y → x < y)
      ∧ (∀ k, t.has k = (m k).isSome ∧ t.number k = m.number k ∧ t.text k = m.text k
        ∧ ∀ v, (k, v) ∈ t.entries ↔ m k = some v)
      ∧ t.size = m.kinds.length
      ∧ (∀ j, t.presence.getLsbD j = m.kinds.any (·.index = j))
      ∧ ∀ (others : List AttributeEdit) (a b : Item),
        (a.withAttributes edits).agrees (b.withAttributes others) = true
          ↔ a.typeId = b.typeId ∧ m = .ofEdits others := by
  intro t m
  -- All but the order follows from the table being the map.
  have h : t.Represents m := AttributeTable.represents_ofEdits edits
  have hOrder := AttributeTable.ordered_ofEdits edits
  refine ⟨?_, ?_, hOrder.since, ?_, ?_, ?_, h.getLsbD_presence, ?_⟩
  · intro k
    have hBit : t.presence.getLsbD k.index = true ↔ k ∈ t.kinds := h.has k
    refine ⟨?_, ?_⟩
    · rw [hBit]
      constructor
      · exact List.count_eq_one_of_mem h.nodup
      · intro hOne
        exact List.count_pos_iff.1 (by omega)
    · rw [List.count_eq_zero, ← hBit, Bool.not_eq_true]
  · intro k v hMem
    exact h.fits k v ((h.mem_entries_iff k v).1 hMem)
  · refine hOrder.order.imp ?_
    rintro j k ⟨x, y, hx, hy, hLess⟩ x' y' hx' hy'
    rw [← hx.unique hx', ← hy.unique hy']
    exact hLess
  · intro k
    exact ⟨h.has_eq k, h.number_eq k, h.text_eq k, h.mem_entries_iff k⟩
  · rw [← h.kinds_perm.length_eq]
    exact (List.length_map _).symm
  · intro others a b
    obtain ⟨hTable, hType⟩ := a.table_withAttributes edits
    obtain ⟨hTable', hType'⟩ := b.table_withAttributes others
    rw [Item.agrees, Bool.and_eq_true, beq_iff_eq, hTable, hTable', hType, hType',
      h.agrees_iff (AttributeTable.represents_ofEdits others)]

/-- Charges and a writer, of which the charges are taken away and given anew; all else is not
stored. -/
def mixedEdits : List AttributeEdit :=
  [.number .charges 3, .text .writer "Eremo", .text .text "", .number .text 5, .remove .charges,
    .number .charges Int64.maxValue, .increase .charges 2]

/-- The writer stands in front of the charges, which have stopped at the greatest number. -/
theorem table_is_finite_map_mixedEdits :
    let t := AttributeTable.ofEdits mixedEdits
    t.kinds = [.writer, .charges] ∧ (∃ i, AttributeEdit.Since mixedEdits .writer i)
      ∧ (.charges, .number 9223372036854775807) ∈ t.entries
      ∧ (AttributeValue.number 9223372036854775807).Fits .charges := by
  intro t
  have hKinds : t.kinds = [.writer, .charges] := by
    decide +kernel
  have hMem : (.charges, .number 9223372036854775807) ∈ t.entries := by
    decide +kernel
  obtain ⟨_, hFits, hSince, _⟩ := table_is_finite_map mixedEdits
  exact ⟨hKinds, (hSince .writer).1 (hKinds ▸ List.mem_cons_self), hMem, hFits _ _ hMem⟩

end Homestead
