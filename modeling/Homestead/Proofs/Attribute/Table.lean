/-
  Homestead.Proofs.Attribute.Table
  ────────────────────────────────
  **WHAT A TABLE SAYS AFTER A CHANGE.**

  Storing a value under a kind changes what the table says about that kind
  and about no other; the same holds of removing one.  None of it needs the
  presence word and the entries to agree beforehand.
-/
import Homestead.Attribute.Table
import Mathlib.Data.List.Basic

namespace Homestead

namespace AttributeTable

variable (t : AttributeTable) (j k : Kind)

/-! ## §1. Storing a value. -/

/-- An attribute is there after it is put, and so is what was there. -/
theorem has_put (v : AttributeValue) : (t.put k v).has j = (t.has j || decide (j = k)) := by
  show (t.presence ||| bit k).getLsbD j.index = _
  rw [BitVec.getLsbD_or, bit, BitVec.getLsbD_twoPow, decide_eq_true (Kind.index_lt k),
    Bool.true_and]
  congr 1
  by_cases h : j = k
  · rw [h, decide_eq_true rfl, decide_eq_true rfl]
  · rw [decide_eq_false h, decide_eq_false fun h' => h (Kind.index_injective h'.symm)]

/-- In a list of entries an assignment is found under its kind alone. -/
theorem find?_assign (v : AttributeValue) (es : List (Kind × AttributeValue)) :
    (assign k v es).find? (·.1 = j) = if j = k then some (k, v) else es.find? (·.1 = j) := by
  induction es with
  | nil => by_cases h : j = k <;> simp [assign, h, eq_comm]
  | cons e es ih =>
    unfold assign
    -- The entry of the kind is overwritten, and the search stops at it as before.
    by_cases he : e.1 = k
    · rw [if_pos he]
      by_cases h : j = k
      · simp [h]
      · have hk : k ≠ j := fun h' => h h'.symm
        simp [h, hk, he]
    · rw [if_neg he, List.find?_cons, List.find?_cons, ih]
      by_cases h : j = k
      · simp [h, he]
      · simp [h]

/-- What is put is found under its kind alone. -/
theorem get?_put (v : AttributeValue) :
    (t.put k v).get? j = if j = k then some v else t.get? j := by
  have hEntries : (t.put k v).entries = assign k v t.entries := rfl
  rw [get?, has_put, hEntries, find?_assign]
  by_cases h : j = k
  · simp [h]
  · simp [h, get?]

/-! ## §2. Numbers and texts. -/

/-- Whether a kind has an entry, and its value: all that a table says about the kind. -/
def entry : Bool × Option AttributeValue :=
  (t.has k, t.get? k)

/-- Putting a value writes one entry. -/
theorem entry_put (v : AttributeValue) :
    (t.put k v).entry j = if j = k then (true, some v) else t.entry j := by
  rw [entry, has_put, get?_put]
  by_cases h : j = k
  · simp [h]
  · simp [h, entry]

/-- A number is put where the kind holds numbers, and nowhere else. -/
theorem entry_setNumber (n : Int) :
    (t.setNumber k n).entry j
      = if j = k ∧ k.isNumber then (true, some (.number n)) else t.entry j := by
  unfold setNumber
  by_cases hk : k.isNumber
  · rw [if_pos hk, entry_put]
    simp [hk]
  · rw [if_neg hk, if_neg fun h => hk h.2]

/-- A text is put where the kind holds texts, unless it is empty. -/
theorem entry_setText (s : String) :
    (t.setText k s).entry j
      = if j = k ∧ k.isText ∧ s ≠ "" then (true, some (.text s)) else t.entry j := by
  unfold setText
  by_cases hk : (k.isText && s != "") = true
  · rw [if_pos hk, entry_put]
    simp only [Bool.and_eq_true, bne_iff_ne, ne_eq] at hk
    simp [hk]
  · rw [if_neg hk, if_neg fun h => hk (by simp [h.2.1, h.2.2])]

/-- The number depends on the entry alone. -/
theorem number_eq_of_entry {t u : AttributeTable} {k : Kind} (h : t.entry k = u.entry k) :
    t.number k = u.number k := by
  have hGet : t.get? k = u.get? k := congrArg Prod.snd h
  rw [number, number, hGet]

/-- The text depends on the entry alone. -/
theorem text_eq_of_entry {t u : AttributeTable} {k : Kind} (h : t.entry k = u.entry k) :
    t.text k = u.text k := by
  have hGet : t.get? k = u.get? k := congrArg Prod.snd h
  rw [text, text, hGet]

/-- An entry that holds a number is what reading the number gives. -/
theorem number_of_entry {t : AttributeTable} {k : Kind} {b : Bool} {n : Int}
    (hk : k.isNumber) (h : t.entry k = (b, some (.number n))) : t.number k = n := by
  have hGet : t.get? k = some (.number n) := congrArg Prod.snd h
  rw [number, hk, hGet]

/-- An entry that holds a text is what reading the text gives. -/
theorem text_of_entry {t : AttributeTable} {k : Kind} {b : Bool} {s : String}
    (hk : k.isText) (h : t.entry k = (b, some (.text s))) : t.text k = s := by
  have hGet : t.get? k = some (.text s) := congrArg Prod.snd h
  rw [text, hk, hGet]

/-- A kind without an entry has the number 0. -/
theorem number_of_not_has {t : AttributeTable} {k : Kind} (h : t.has k = false) :
    t.number k = 0 := by
  rw [number, get?, h]
  cases k.isNumber <;> rfl

/-- A text kind without an entry has the empty text. -/
theorem text_of_not_has {t : AttributeTable} {k : Kind} (h : t.has k = false) :
    t.text k = "" := by
  rw [text, get?, h]
  cases k.isText <;> rfl

/-! ## §3. Removing an entry. -/

/-- A removed attribute is not there; the others are if they were. -/
theorem has_remove : (t.remove k).has j = (t.has j && decide (j ≠ k)) := by
  unfold remove
  by_cases hk : t.has k
  · rw [if_pos hk]
    show (t.presence &&& ~~~ bit k).getLsbD j.index = _
    rw [BitVec.getLsbD_and, BitVec.getLsbD_not, bit, BitVec.getLsbD_twoPow,
      decide_eq_true (Kind.index_lt k), decide_eq_true (Kind.index_lt j), Bool.true_and,
      Bool.true_and]
    -- The mask leaves out one bit, which is the bit of no other kind.
    congr 1
    by_cases h : j = k
    · simp [h]
    · have hne : k.index ≠ j.index := fun h' => h (Kind.index_injective h'.symm)
      simp [h, hne]
  · rw [if_neg hk]
    by_cases h : j = k
    · simp [h, hk]
    · simp [h]

/-- Striking out one kind leaves the entries of the others. -/
theorem find?_eraseP (es : List (Kind × AttributeValue)) (h : j ≠ k) :
    (es.eraseP (·.1 = k)).find? (·.1 = j) = es.find? (·.1 = j) := by
  induction es with
  | nil => rfl
  | cons e es ih =>
    by_cases he : e.1 = k
    · have hj : ¬ e.1 = j := fun h' => h (h'.symm.trans he)
      simp [he, Ne.symm h]
    · rw [List.eraseP_cons_of_neg (by simpa using he), List.find?_cons, List.find?_cons, ih]

/-- A removed attribute has no value; the others keep theirs. -/
theorem get?_remove : (t.remove k).get? j = if j = k then none else t.get? j := by
  rw [get?, has_remove]
  by_cases h : j = k
  · simp [h]
  · rw [if_neg h, decide_eq_true h, Bool.and_true, get?]
    by_cases hk : t.has k
    · have hEntries : (t.remove k).entries = t.entries.eraseP (·.1 = k) := by
        rw [remove, if_pos hk]
      rw [hEntries, find?_eraseP j k t.entries h]
    · rw [remove, if_neg hk]

/-- Removing an attribute clears one entry. -/
theorem entry_remove :
    (t.remove k).entry j = if j = k then (false, none) else t.entry j := by
  rw [entry, has_remove, get?_remove]
  by_cases h : j = k
  · simp [h]
  · simp [h, entry]

end AttributeTable

end Homestead
