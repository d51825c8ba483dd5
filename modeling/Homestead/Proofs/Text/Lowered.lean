/-
  Homestead.Proofs.Text.Lowered
  ─────────────────────────────
  **LOWER-CASE FORMS ARE LOWER-CASE.**

  No row of the mapping moves a code point to where a row moves it again.
  So a lower-case form is its own lower-case form.  No capital sigma is left
  in it, the only character whose form depends on others, and what is cut
  out of a lower-case form is therefore lower-case too.

  Main results:
    * `lowerCode_lowerCode` — code points are moved once;
    * `isLower_of_mem_lowerChars` — a lower-case form has no other characters;
    * `lowercase_lowercase` — a lower-case form is its own.
-/
import Homestead.Proofs.Text.Plain
import Mathlib.Tactic.SplitIfs

namespace Homestead.Text

/-! ## §1. Code points. -/

namespace CaseTable

/-- The row moves the code point. -/
def Shift.has (row : Shift) (n : Nat) : Bool :=
  row.first ≤ n && n ≤ row.last && (n - row.first) % row.stride == 0

/-- Where the row moves a code point. -/
def Shift.move (row : Shift) (n : Nat) : Nat :=
  (Int.ofNat n + row.offset).toNat

/-- What the row has moved lies before the other row or behind it, or between its code points. -/
def Shift.misses (row other : Shift) : Bool :=
  Nat.blt (row.move row.last) other.first || Nat.blt other.last (row.move row.first)
    || (row.stride == 2 || row.first == row.last) && other.stride == 2
      && (row.move row.first + other.first) % 2 == 1

/-- No row of the table leads below 0. -/
theorem lowerShifts_forward : ∀ row ∈ lowerShifts.toList, 0 ≤ (row.first : Int) + row.offset := by
  decide +kernel

/-- The code point of the capital I with a dot, which no row moves, as a row. -/
def dotted : Shift := ⟨0x130, 0x130, 2, 0⟩

/-- No row of the table leads to the dotted letter that has a lower case of two characters. -/
theorem lowerShifts_miss_dotted : ∀ row ∈ lowerShifts.toList, row.misses dotted = true := by
  decide +kernel

/-- No row of the table leads into another, so a second lowering finds nothing to do. -/
theorem lowerShifts_miss :
    (lowerShifts.toList.all fun row => lowerShifts.toList.all row.misses) = true := by
  decide +kernel

variable {row other : Shift} {n : Nat}

/-- A row has the codes of its range, in its stride. -/
theorem has_iff : row.has n = true
    ↔ row.first ≤ n ∧ n ≤ row.last ∧ (n - row.first) % row.stride = 0 := by
  rw [Shift.has, Bool.and_eq_true, Bool.and_eq_true, decide_eq_true_iff, decide_eq_true_iff,
    beq_iff_eq, and_assoc]

/-- One row misses another if its images lie before or behind it, or fall between its strides. -/
theorem misses_iff : row.misses other = true
    ↔ row.move row.last < other.first ∨ other.last < row.move row.first
      ∨ (row.stride = 2 ∨ row.first = row.last) ∧ other.stride = 2
        ∧ (row.move row.first + other.first) % 2 = 1 := by
  rw [Shift.misses, Bool.or_eq_true, Bool.or_eq_true, Bool.and_eq_true, Bool.and_eq_true,
    Bool.or_eq_true, Nat.blt_eq, Nat.blt_eq, beq_iff_eq, beq_iff_eq, beq_iff_eq, beq_iff_eq,
    or_assoc, and_assoc]

/-- **What a row has moved is not moved again** by a row that it misses. -/
theorem Shift.misses.not_has_move (hMisses : row.misses other = true)
    (hForward : 0 ≤ (row.first : Int) + row.offset) (hHas : row.has n = true) :
    other.has (row.move n) = false := by
  rw [Bool.eq_false_iff, Ne, has_iff]
  rw [has_iff] at hHas
  obtain ⟨hFirst, hLast, hStep⟩ := hHas
  rintro ⟨hFirst', hLast', hStep'⟩
  unfold Shift.move at hFirst' hLast' hStep'
  obtain hBefore | hBehind | ⟨hStride, hStride', hOdd⟩ := misses_iff.1 hMisses
  · unfold Shift.move at hBefore
    simp only [Int.ofNat_eq_natCast] at hBefore hFirst'
    omega
  · unfold Shift.move at hBehind
    simp only [Int.ofNat_eq_natCast] at hBehind hLast'
    omega
  · -- An even distance from the one row is an odd distance from the other.
    have hEven : (n - row.first) % 2 = 0 := by
      obtain hTwo | hSingle := hStride
      · rwa [hTwo] at hStep
      · omega
    rw [hStride'] at hStep'
    unfold Shift.move at hOdd
    simp only [Int.ofNat_eq_natCast] at hOdd hFirst' hStep'
    omega

end CaseTable

open CaseTable

/-- A code point is left alone by all rows, or moved by one of them. -/
theorem lowerCode_cases (n : Nat) :
    (∀ row ∈ lowerShifts.toList, row.has n = false) ∧ lowerCode n = n
      ∨ ∃ row ∈ lowerShifts.toList, row.has n = true ∧ lowerCode n = row.move n := by
  unfold lowerCode
  split
  next row hFind =>
    have hMem := Array.mem_toList_iff.2 (Array.mem_of_find?_eq_some hFind)
    have hHas := Array.find?_some hFind
    exact .inr ⟨row, hMem, hHas, rfl⟩
  next hFind =>
    refine .inl ⟨fun row hRow => ?_, rfl⟩
    exact Bool.eq_false_iff.2 (Array.find?_eq_none.1 hFind row (Array.mem_toList_iff.1 hRow))

/-- A code in no row is its own lower case. -/
theorem lowerCode_of_forall {n : Nat} (h : ∀ row ∈ lowerShifts.toList, row.has n = false) :
    lowerCode n = n := by
  obtain ⟨-, hSame⟩ | ⟨row, hRow, hHas, -⟩ := lowerCode_cases n
  · exact hSame
  · rw [h row hRow] at hHas
    cases hHas

/-- **Code points are moved once.** -/
theorem lowerCode_lowerCode (n : Nat) : lowerCode (lowerCode n) = lowerCode n := by
  obtain ⟨hNone, hSame⟩ | ⟨row, hRow, hHas, hMoved⟩ := lowerCode_cases n
  · rw [hSame, hSame]
  · have hMisses := List.all_eq_true.1 (List.all_eq_true.1 lowerShifts_miss row hRow)
    obtain ⟨-, hSame⟩ | ⟨other, hOther, hAgain, -⟩ := lowerCode_cases (lowerCode n)
    · exact hSame
    · rw [hMoved, Shift.misses.not_has_move (hMisses other hOther)
        (lowerShifts_forward row hRow) hHas] at hAgain
      cases hAgain

/-- Nothing is moved to the capital I with a dot. -/
theorem lowerCode_ne_dotted {n : Nat} (h : n ≠ 0x130) : lowerCode n ≠ 0x130 := by
  obtain ⟨-, hSame⟩ | ⟨row, hRow, hHas, hMoved⟩ := lowerCode_cases n
  · rwa [hSame]
  · intro hDotted
    have hMiss := Shift.misses.not_has_move (lowerShifts_miss_dotted row hRow)
      (lowerShifts_forward row hRow) hHas
    rw [← hMoved, hDotted] at hMiss
    cases hMiss

/-! ## §2. Characters. -/

/-- The character is its own lower-case form, in every text. -/
def IsLower (c : Char) : Prop :=
  c ≠ capitalSigma ∧ lowerChar c = [c]

instance (c : Char) : Decidable (IsLower c) :=
  inferInstanceAs (Decidable (_ ∧ _))

/-- A code point that is left alone is that of a lower-case character. -/
theorem isLower_ofNat {n : Nat} (hSame : lowerCode n = n) (hDotted : n ≠ 0x130)
    (hAscii : 128 ≤ n ∨ n = 107) : IsLower (Char.ofNat n) := by
  obtain hBeyond | rfl := hAscii
  · by_cases hValid : n.isValidChar
    · have hCode := toNat_ofNat_of_isValidChar hValid
      constructor
      · intro hSigma
        rw [hSigma] at hCode
        rw [← hCode] at hSame
        revert hSame
        decide +kernel
      · rw [lowerChar, hCode, if_neg (Nat.not_lt_of_le hBeyond),
          if_neg (by rwa [beq_iff_eq]), hSame]
    · -- A number that stands for no character is read as NUL.
      rw [Char.ofNat, dif_neg hValid]
      decide
  · decide

/-- The combining dot, which stands for no letter. -/
theorem isLower_dot : IsLower (Char.ofNat 0x307) :=
  isLower_ofNat (lowerCode_of_forall (by decide +kernel)) (by decide) (by decide)

theorem isLower_sigma : IsLower 'σ' :=
  isLower_ofNat (n := 0x3C3) (lowerCode_of_forall (by decide +kernel)) (by decide) (by decide)

theorem isLower_finalSigma : IsLower 'ς' :=
  isLower_ofNat (n := 0x3C2) (lowerCode_of_forall (by decide +kernel)) (by decide) (by decide)

/-- **What a character becomes is lower-case.** -/
theorem isLower_of_mem_lowerChar {c d : Char} (h : d ∈ lowerChar c) : IsLower d := by
  by_cases hAscii : c.toNat < 128
  · rw [lowerChar_ascii c hAscii, List.mem_singleton] at h
    rw [h]
    refine forall_ascii (p := fun c => IsLower (lowerAsciiChar c)) ?_ c hAscii
    decide
  · unfold lowerChar at h
    rw [if_neg hAscii] at h
    -- The dotted letter alone becomes two characters.
    by_cases hDotted : (c.toNat == 0x130) = true
    · rw [if_pos hDotted, List.mem_cons, List.mem_singleton] at h
      obtain rfl | rfl := h
      · decide
      · exact isLower_dot
    · rw [if_neg hDotted, List.mem_singleton] at h
      rw [h]
      rw [beq_iff_eq] at hDotted
      exact isLower_ofNat (lowerCode_lowerCode _) (lowerCode_ne_dotted hDotted)
        (lowerCode_beyond (Nat.le_of_not_lt hAscii))

/-! ## §3. Texts. -/

/-- **A lower-case form has lower-case characters only.** -/
theorem isLower_of_mem_lowerChars {before cs : List Char} {d : Char}
    (h : d ∈ lowerChars before cs) : IsLower d := by
  induction cs generalizing before with
  | nil => cases h
  | cons c cs ih =>
    rw [lowerChars] at h
    obtain hFirst | hRest := List.mem_append.1 h
    · -- A capital sigma has two forms, by its place, and both are lower-case.
      split_ifs at hFirst
      · rw [List.mem_singleton.1 hFirst]
        exact isLower_finalSigma
      · rw [List.mem_singleton.1 hFirst]
        exact isLower_sigma
      · exact isLower_of_mem_lowerChar hFirst
    · exact ih hRest

/-- No character is lost. -/
theorem lowercase_toList_ne_nil {s : String} (h : s.toList ≠ []) : (lowercase s).toList ≠ [] := by
  obtain ⟨c, cs, hCons⟩ := List.exists_cons_of_ne_nil h
  rw [lowercase, String.toList_ofList, hCons, lowerChars]
  refine List.append_ne_nil_of_left_ne_nil ?_ _
  split_ifs
  · exact List.cons_ne_nil _ _
  · exact List.cons_ne_nil _ _
  · unfold lowerChar
    split_ifs <;> exact List.cons_ne_nil _ _

/-- Lower-case characters stay as they are. -/
theorem lowerChars_of_isLower (before : List Char) {cs : List Char} (h : ∀ c ∈ cs, IsLower c) :
    lowerChars before cs = cs := by
  induction cs generalizing before with
  | nil => rfl
  | cons c cs ih =>
    obtain ⟨⟨hSigma, hSame⟩, hRest⟩ := List.forall_mem_cons.1 h
    rw [lowerChars, if_neg hSigma, hSame, ih (c :: before) hRest]
    rfl

/-- What is cut out of a lower-case form is its own lower-case form. -/
theorem lowercase_ofList_of_subset {s : String} {cs : List Char}
    (h : cs ⊆ (lowercase s).toList) : lowercase (String.ofList cs) = String.ofList cs := by
  rw [lowercase, String.toList_ofList] at h
  rw [lowercase, String.toList_ofList,
    lowerChars_of_isLower [] fun c hc => isLower_of_mem_lowerChars (h hc)]

/-- **A lower-case form is its own.** -/
theorem lowercase_lowercase (s : String) : lowercase (lowercase s) = lowercase s := by
  have hSame := lowercase_ofList_of_subset (List.Subset.refl (lowercase s).toList)
  rwa [String.ofList_toList] at hSame

end Homestead.Text
