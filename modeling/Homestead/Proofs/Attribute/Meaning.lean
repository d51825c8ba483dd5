/-
  Homestead.Proofs.Attribute.Meaning
  ──────────────────────────────────
  **A TABLE IS A FINITE MAP.**

  A table says twice which kinds have a value, once in its presence word
  and once in its entries.  Whatever is stored and removed, the two say the
  same, and what they say is a map from kinds to values that can be told
  without any table.  That two tables are compared by their words and by
  the entries of the first alone is right for this reason.

  Main results:
    * `Represents` — a table that says what a map says;
    * `Represents.edit` — an edit does to the map what it does to the table;
    * `Represents.agrees_iff` — comparing tables is comparing maps.
-/
import Homestead.Proofs.Item.Values
import Mathlib.Data.List.Induction
import Mathlib.Data.List.Nodup
import Mathlib.Logic.Function.Basic

namespace Homestead

/-! ## §1. Edits and maps. -/

/-- A change of attributes. -/
inductive AttributeEdit where
  /-- A number is stored. -/
  | number (k : Kind) (n : Int64)
  /-- Something is added to a number. -/
  | increase (k : Kind) (delta : Int64)
  /-- A text is stored. -/
  | text (k : Kind) (s : String)
  /-- A value is removed. -/
  | remove (k : Kind)
  deriving DecidableEq

/-- A value for each of some kinds. -/
abbrev AttributeMap : Type :=
  Kind → Option AttributeValue

namespace Kind

/-- No kind is listed twice. -/
theorem nodup_all : all.Nodup := by
  decide

/-- Every place of the presence word belongs to a kind. -/
theorem exists_index {j : Nat} (h : j < 31) : ∃ k : Kind, k.index = j := by
  have hAll : ∀ j < 31, ∃ k ∈ all, k.index = j := by decide
  obtain ⟨k, _, hk⟩ := hAll j h
  exact ⟨k, hk⟩

end Kind

namespace AttributeMap

/-- The number of a kind, 0 if it has none. -/
def number (m : AttributeMap) (k : Kind) : Int :=
  match m k with
  | some (.number n) => n
  | _ => 0

/-- The text of a kind, empty if it has none. -/
def text (m : AttributeMap) (k : Kind) : String :=
  match m k with
  | some (.text s) => s
  | _ => ""

/-- The map after an edit.  Numbers are stored under number kinds only, texts under text kinds only,
and the empty text is not stored; sums stop at the bounds of numbers. -/
def edit (m : AttributeMap) : AttributeEdit → AttributeMap
  | .number k n => if k.isNumber then Function.update m k (some (.number n.toInt)) else m
  | .increase k delta =>
    if k.isNumber then
      let sum := max Int64.minValue.toInt (min Int64.maxValue.toInt (m.number k + delta.toInt))
      Function.update m k (some (.number sum))
    else m
  | .text k s => if k.isText ∧ s ≠ "" then Function.update m k (some (.text s)) else m
  | .remove k => Function.update m k none

/-- The map that edits make of the empty one. -/
def ofEdits (edits : List AttributeEdit) : AttributeMap :=
  edits.foldl edit fun _ => none

/-- The kinds that have a value, in the order of their bits. -/
def kinds (m : AttributeMap) : List Kind :=
  Kind.all.filter fun k => (m k).isSome

end AttributeMap

namespace AttributeTable

/-- The table after an edit. -/
def edit (t : AttributeTable) : AttributeEdit → AttributeTable
  | .number k n => t.setNumber k n.toInt
  | .increase k delta => t.increase k delta.toInt
  | .text k s => t.setText k s
  | .remove k => t.remove k

/-- The table that edits make of the empty one. -/
def ofEdits (edits : List AttributeEdit) : AttributeTable :=
  edits.foldl edit .empty

/-- The kinds of the entries, in order. -/
def kinds (t : AttributeTable) : List Kind :=
  t.entries.map (·.1)

end AttributeTable

/-- The value is one that is stored under the kind: a 64-bit number, or a text with something in
it. -/
def AttributeValue.Fits (k : Kind) : AttributeValue → Prop
  | .number n => k.isNumber = true ∧ Int64.minValue.toInt ≤ n ∧ n ≤ Int64.maxValue.toInt
  | .text s => k.isText = true ∧ s ≠ ""

namespace AttributeEdit

/-- Whether the edit stores a value under a kind. -/
def stores (k : Kind) : AttributeEdit → Bool
  | .number j _ | .increase j _ => j == k && k.isNumber
  | .text j s => j == k && k.isText && s != ""
  | .remove _ => false

/-- Whether the edit removes the value of a kind. -/
def removes (k : Kind) : AttributeEdit → Bool
  | .remove j => j == k
  | _ => false

end AttributeEdit

/-! ## §2. What an edit does. -/

namespace AttributeTable

/-- To saturate is to cut to the range of numbers of eight octets. -/
theorem saturate_eq (x : Int) :
    saturate x = max Int64.minValue.toInt (min Int64.maxValue.toInt x) := rfl

variable {t u : AttributeTable} {m n : AttributeMap} {k : Kind} {v : AttributeValue}

/-- The table says what the map says. -/
structure Represents (t : AttributeTable) (m : AttributeMap) : Prop where
  /-- The values are those of the map. -/
  get : ∀ k, t.get? k = m k
  /-- A kind has one entry at most. -/
  nodup : t.kinds.Nodup
  /-- The bits are those of the kinds that have an entry. -/
  has : ∀ k, t.has k = true ↔ k ∈ t.kinds
  /-- The values fit their kinds. -/
  fits : ∀ k v, m k = some v → v.Fits k

/-- The table without entries is the empty map. -/
theorem represents_empty : empty.Represents fun _ => none where
  get k := by
    show (if (0#31).getLsbD k.index then _ else none) = none
    rw [BitVec.getLsbD_zero, if_neg Bool.false_ne_true]
  nodup := List.nodup_nil
  has k := by
    show (0#31).getLsbD k.index = true ↔ k ∈ []
    simp
  fits k v h := by cases h

/-- Storing a value adds its kind at the end, unless the kind has an entry already. -/
theorem kinds_put (t : AttributeTable) (k : Kind) (v : AttributeValue) :
    (t.put k v).kinds = if k ∈ t.kinds then t.kinds else t.kinds ++ [k] := by
  show (assign k v t.entries).map (·.1)
    = if k ∈ t.entries.map (·.1) then t.entries.map (·.1) else t.entries.map (·.1) ++ [k]
  induction t.entries with
  | nil => rfl
  | cons e es ih =>
    -- The entry is met here, or further on, or not at all and then it is put at the end.
    unfold assign
    by_cases he : e.1 = k
    · rw [if_pos he, if_pos (by simp [he]), List.map_cons, List.map_cons, he]
    · rw [if_neg he, List.map_cons, ih, List.map_cons]
      by_cases hk : k ∈ es.map (·.1)
      · rw [if_pos hk, if_pos (List.mem_cons_of_mem _ hk)]
      · rw [if_neg hk, if_neg (by rw [List.mem_cons]; exact fun h => h.elim (Ne.symm he) hk),
          List.cons_append]

/-- Removing a value takes its kind out. -/
theorem Represents.kinds_remove (h : t.Represents m) (k : Kind) :
    (t.remove k).kinds = t.kinds.erase k := by
  -- At most one entry of the kind goes, the first one, as it does from the list of kinds.
  have hErase : ∀ es : List (Kind × AttributeValue),
      (es.eraseP (·.1 = k)).map (·.1) = (es.map (·.1)).erase k := by
    intro es
    induction es with
    | nil => rfl
    | cons e es ih =>
      rw [List.eraseP_cons, List.map_cons, List.erase_cons]
      by_cases he : e.1 = k
      · simp [he]
      · simp [he, ih]
  unfold AttributeTable.remove
  split_ifs with hk
  · exact hErase t.entries
  · rw [h.has] at hk
    exact (List.erase_of_not_mem hk).symm

/-- Putting a value updates the map. -/
theorem Represents.put (h : t.Represents m) (hv : v.Fits k) :
    (t.put k v).Represents (Function.update m k (some v)) := by
  constructor
  case get =>
    intro j
    rw [get?_put, Function.update_apply, h.get]
  case nodup =>
    rw [kinds_put]
    -- A kind that is there already keeps its place, and a new one comes last.
    split_ifs with hk
    · exact h.nodup
    · exact List.nodup_append.2 ⟨h.nodup, List.nodup_singleton k, by
        intro j hj j' hj'
        rw [List.mem_singleton.1 hj']
        rintro rfl
        exact hk hj⟩
  case has =>
    intro j
    rw [has_put, Bool.or_eq_true, h.has, decide_eq_true_iff, kinds_put]
    split_ifs with hk
    · constructor
      · rintro (hj | rfl)
        · exact hj
        · exact hk
      · exact .inl
    · rw [List.mem_append, List.mem_singleton]
  case fits =>
    intro j w hw
    rw [Function.update_apply] at hw
    split_ifs at hw with hj
    · obtain rfl := Option.some_inj.1 hw
      rw [hj]
      exact hv
    · exact h.fits j w hw

/-- Removing an attribute takes it out of the map. -/
theorem Represents.remove (h : t.Represents m) (k : Kind) :
    (t.remove k).Represents (Function.update m k none) := by
  constructor
  case get =>
    intro j
    rw [get?_remove, Function.update_apply, h.get]
  case nodup =>
    rw [h.kinds_remove]
    exact h.nodup.erase k
  case has =>
    intro j
    rw [has_remove, Bool.and_eq_true, h.has, decide_eq_true_iff, h.kinds_remove,
      h.nodup.mem_erase_iff, and_comm]
  case fits =>
    intro j w hw
    rw [Function.update_apply] at hw
    -- Nothing is said of the kind that is gone.
    split_ifs at hw
    exact h.fits j w hw

/-- The number that the table tells is that of the map. -/
theorem Represents.number_eq (h : t.Represents m) (k : Kind) : t.number k = m.number k := by
  unfold AttributeTable.number AttributeMap.number
  rw [h.get]
  cases hValue : m k with
  | none => cases k.isNumber <;> rfl
  | some v =>
    cases v with
    | number n => rw [(h.fits k _ hValue).1]
    | text s => cases k.isNumber <;> rfl

/-- The text of a table is the text of the map. -/
theorem Represents.text_eq (h : t.Represents m) (k : Kind) : t.text k = m.text k := by
  unfold AttributeTable.text AttributeMap.text
  rw [h.get]
  cases hValue : m k with
  | none => cases k.isText <;> rfl
  | some v =>
    cases v with
    | number n => cases k.isText <;> rfl
    | text s => rw [(h.fits k _ hValue).1]

/-- **An edit** stores one value that fits, removes one, or does nothing, and it does the same to a
table and to the map that the table represents. -/
inductive Effect (t : AttributeTable) (m : AttributeMap) (e : AttributeEdit) : Prop where
  /-- A value is stored. -/
  | put (k : Kind) (v : AttributeValue) (hv : v.Fits k) (hStores : ∀ j, e.stores j = decide (j = k))
    (hRemoves : ∀ j, e.removes j = false) (hTable : t.edit e = t.put k v)
    (hMap : m.edit e = Function.update m k (some v))
  /-- A value is removed. -/
  | remove (k : Kind) (hEdit : e = .remove k)
  /-- Nothing is done. -/
  | nothing (hStores : ∀ j, e.stores j = false) (hRemoves : ∀ j, e.removes j = false)
    (hTable : t.edit e = t) (hMap : m.edit e = m)

/-- A number of eight octets fits each kind that holds numbers. -/
theorem fits_number (hk : k.isNumber = true) (n : Int64) : (AttributeValue.number n.toInt).Fits k :=
  ⟨hk, Int64.minValue_le_toInt n, Int64.toInt_le n⟩

/-- Each edit puts a value, removes an attribute, or does nothing. -/
theorem Represents.effect (h : t.Represents m) (e : AttributeEdit) : Effect t m e := by
  have hNumber : ∀ k : Kind, k.isNumber = true →
      ∀ j : Kind, (k == j && j.isNumber) = decide (j = k) := by
    intro k hk j
    by_cases hj : j = k
    · simp [hj, hk]
    · simp [hj, Ne.symm hj]
  have hNoNumber : ∀ k : Kind, k.isNumber ≠ true → ∀ j : Kind, (k == j && j.isNumber) = false := by
    intro k hk j
    by_cases hj : k = j
    · rw [← hj, Bool.eq_false_iff.2 hk, Bool.and_false]
    · simp [hj]
  -- A number goes where the kind holds numbers, a text where it holds texts and is not empty.
  cases e with
  | number k n =>
    by_cases hk : k.isNumber = true
    · refine .put k _ (fits_number hk n) (hNumber k hk) (fun _ => rfl) ?_ (if_pos hk)
      exact if_pos hk
    · exact .nothing (hNoNumber k hk) (fun _ => rfl) (if_neg hk) (if_neg hk)
  | increase k delta =>
    by_cases hk : k.isNumber = true
    · refine .put k (.number (saturate (t.number k + delta.toInt))) ⟨hk, ?_⟩ (hNumber k hk)
        (fun _ => rfl) (if_pos hk) ?_
      · -- The sum stops at the ends of the range, and so it fits.
        rw [saturate_eq]
        exact ⟨le_max_left _ _, max_le (by decide) (min_le_left _ _)⟩
      · rw [saturate_eq, h.number_eq]
        exact if_pos hk
    · exact .nothing (hNoNumber k hk) (fun _ => rfl) (if_neg hk) (if_neg hk)
  | text k s =>
    by_cases hk : k.isText = true ∧ s ≠ ""
    · refine .put k (.text s) hk ?_ (fun _ => rfl) (if_pos (by simpa using hk)) (if_pos hk)
      intro j
      by_cases hj : j = k
      · simp [AttributeEdit.stores, hj, hk.1, hk.2]
      · simp [AttributeEdit.stores, hj, Ne.symm hj]
    · refine .nothing ?_ (fun _ => rfl) (if_neg (by simpa using hk)) (if_neg hk)
      intro j
      by_cases hj : k = j
      · rw [hj] at hk
        -- An empty text or a kind without texts stores nothing.
        simpa [AttributeEdit.stores, hj] using hk
      · simp [AttributeEdit.stores, hj]
  | remove k => exact .remove k rfl

/-- **An edit does to the map what it does to the table.** -/
theorem Represents.edit (h : t.Represents m) (e : AttributeEdit) :
    (t.edit e).Represents (m.edit e) := by
  cases h.effect e with
  | put k v hv _ _ hTable hMap =>
    rw [hTable, hMap]
    exact h.put hv
  | remove k hEdit =>
    rw [hEdit]
    exact h.remove k
  | nothing _ _ hTable hMap => rwa [hTable, hMap]

/-- After any edits the table is the map that they make, by induction from the last one. -/
theorem represents_ofEdits (edits : List AttributeEdit) :
    (ofEdits edits).Represents (.ofEdits edits) := by
  induction edits using List.reverseRecOn with
  | nil => exact represents_empty
  | append_singleton edits e ih =>
    unfold ofEdits AttributeMap.ofEdits
    rw [List.foldl_append, List.foldl_append]
    exact ih.edit e

/-! ## §3. What a table tells, and when two tables agree. -/

/-- A kind has an entry just if the map has a value for it. -/
theorem Represents.has_eq (h : t.Represents m) (k : Kind) : t.has k = (m k).isSome := by
  rw [← h.get, get?]
  split_ifs with hk
  · have hMem := (h.has k).1 hk
    obtain ⟨e, he, hKind⟩ := List.mem_map.1 hMem
    rw [hk, Option.isSome_map, eq_comm, List.find?_isSome]
    exact ⟨e, he, by simpa using hKind⟩
  · exact Bool.eq_false_iff.2 hk

/-- The entries are those of the map. -/
theorem Represents.mem_entries_iff (h : t.Represents m) (k : Kind) (v : AttributeValue) :
    (k, v) ∈ t.entries ↔ m k = some v := by
  rw [← h.get, get?]
  constructor
  · intro hMem
    have hk : t.has k = true := (h.has k).2 (List.mem_map_of_mem hMem)
    have hFound : (t.entries.find? (·.1 = k)).isSome = true :=
      List.find?_isSome.2 ⟨(k, v), hMem, by simp⟩
    obtain ⟨e, he⟩ := Option.isSome_iff_exists.1 hFound
    -- There is one entry of the kind, so it is the one that is found.
    have hKind : e.1 = k := by simpa using List.find?_some he
    have hSame := List.inj_on_of_nodup_map h.nodup (List.mem_of_find?_eq_some he) hMem hKind
    rw [if_pos hk, he, hSame]
    rfl
  · intro hValue
    split_ifs at hValue
    obtain ⟨e, he, rfl⟩ := Option.map_eq_some_iff.1 hValue
    have hKind : e.1 = k := by simpa using List.find?_some he
    rw [← hKind]
    exact List.mem_of_find?_eq_some he

/-- The map and the table have the same kinds. -/
theorem Represents.kinds_perm (h : t.Represents m) : t.kinds.Perm m.kinds := by
  refine (List.perm_ext_iff_of_nodup h.nodup (Kind.nodup_all.filter _)).2 ?_
  intro k
  rw [← h.has, h.has_eq]
  show (m k).isSome = true ↔ k ∈ Kind.all.filter fun k => (m k).isSome
  rw [List.mem_filter]
  exact (and_iff_right k.mem_all).symm

/-- The word has the bits of the kinds of the map, and no others. -/
theorem Represents.getLsbD_presence (h : t.Represents m) (j : Nat) :
    t.presence.getLsbD j = m.kinds.any (·.index = j) := by
  rw [Bool.eq_iff_iff, List.any_eq_true]
  constructor
  · intro hBit
    obtain ⟨k, rfl⟩ := Kind.exists_index (BitVec.lt_of_getLsbD hBit)
    exact ⟨k, h.kinds_perm.mem_iff.1 ((h.has k).1 hBit), by simp⟩
  · rintro ⟨k, hk, hIndex⟩
    obtain rfl : k.index = j := by simpa using hIndex
    exact (h.has k).2 (h.kinds_perm.mem_iff.2 hk)

/-- A value that fits its kind is the number or the text that the map tells. -/
theorem value_eq_iff (h : t.Represents m) (h' : u.Represents n) {k : Kind} {v : AttributeValue}
    (hv : m k = some v) (hThere : (n k).isSome = true) :
    (if k.isText then m.text k == n.text k else m.number k == n.number k) = true
      ↔ n k = some v := by
  obtain ⟨v', hv'⟩ := Option.isSome_iff_exists.1 hThere
  have hFits := h.fits k v hv
  have hFits' := h'.fits k v' hv'
  unfold AttributeMap.text AttributeMap.number
  rw [hv, hv']
  -- Values of different sorts do not fit one kind.
  cases v with
  | number x =>
    cases v' with
    | number y =>
      have hk : k.isText = false := by simpa [Kind.isNumber] using hFits.1
      simpa [hk] using eq_comm
    | text s => exact absurd hFits'.1 (by simpa [Kind.isNumber] using hFits.1)
  | text s =>
    cases v' with
    | number y => exact absurd hFits.1 (by simpa [Kind.isNumber] using hFits'.1)
    | text s' => simpa [hFits.1] using eq_comm

/-- **Comparing tables is comparing maps.**  The words tell that the same kinds have values, so it
is enough to go through the entries of one table. -/
theorem Represents.agrees_iff (h : t.Represents m) (h' : u.Represents n) :
    t.agrees u = true ↔ m = n := by
  -- The comparison runs over the entries of the first table, which are the values of its map.
  have hEntries : (t.entries.all fun e =>
      if e.1.isText then t.text e.1 == u.text e.1 else t.number e.1 == u.number e.1) = true
        ↔ ∀ k v, m k = some v →
          (if k.isText then m.text k == n.text k else m.number k == n.number k) = true := by
    rw [List.all_eq_true]
    constructor
    · intro hAll k v hv
      have hHere := hAll (k, v) ((h.mem_entries_iff k v).2 hv)
      rwa [h.text_eq, h'.text_eq, h.number_eq, h'.number_eq] at hHere
    · intro hAll e he
      rw [h.text_eq, h'.text_eq, h.number_eq, h'.number_eq]
      exact hAll e.1 e.2 ((h.mem_entries_iff e.1 e.2).1 he)
  rw [agrees, Bool.and_eq_true, beq_iff_eq, hEntries]
  constructor
  · rintro ⟨hBits, hValues⟩
    -- The bits say of each kind whether there is a value.
    have hThere : ∀ k, (n k).isSome = (m k).isSome := by
      intro k
      rw [← h'.has_eq, ← h.has_eq]
      exact congrArg (·.getLsbD k.index) hBits.symm
    -- A kind has a value in both maps or in neither.
    funext k
    cases hv : m k with
    | none =>
      have hNone := hThere k
      rw [hv] at hNone
      exact (Option.not_isSome_iff_eq_none.1 (Bool.eq_false_iff.1 hNone)).symm
    | some v =>
      have hSome := hThere k
      rw [hv] at hSome
      exact ((value_eq_iff h h' hv hSome).1 (hValues k v hv)).symm
  · rintro rfl
    refine ⟨?_, ?_⟩
    · refine BitVec.eq_of_getLsbD_eq ?_
      intro j _
      rw [h.getLsbD_presence, h'.getLsbD_presence]
    · intro k v hv
      exact (value_eq_iff h h' hv (by rw [hv]; rfl)).2 hv

end AttributeTable

end Homestead
