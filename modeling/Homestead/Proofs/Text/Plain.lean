/-
  Homestead.Proofs.Text.Plain
  ───────────────────────────
  **TEXTS WITH ONE LOWER-CASE FORM.**

  Of the characters beyond ASCII only the Kelvin sign has an ASCII character
  as its lower-case form.  So a text of ASCII characters other than k has
  the lower-case form of no text but those that differ from it in the case
  of ASCII letters.

  Main results:
    * `lowercase_plain` — the lower-case form of a plain text;
    * `plain_of_lowercase` — texts with a plain lower-case form are plain.
-/
import Mathlib.Algebra.GroupWithZero.Nat
import Homestead.Text.Lowercase

namespace Homestead.Text

/-! ## §1. Characters. -/

/-- An ASCII character other than k and NUL. -/
def IsPlain (c : Char) : Prop :=
  c.toNat < 128 ∧ c ≠ 'k' ∧ c ≠ 'K' ∧ c ≠ '\x00'

instance (c : Char) : Decidable (IsPlain c) :=
  inferInstanceAs (Decidable (_ ∧ _))

/-- The lower-case form of an ASCII letter, and any other character as it is. -/
def lowerAsciiChar (c : Char) : Char :=
  if c.isUpper then c.toLower else c

/-- A statement about ASCII characters is one about the first 128 numbers. -/
theorem forall_ascii {p : Char → Prop} (h : ∀ n < 128, p (Char.ofNat n)) (c : Char)
    (hc : c.toNat < 128) : p c := by
  have hAt := h c.toNat hc
  rwa [Char.ofNat_toNat] at hAt

/-- Below 128 a character has one lower case, the one of its octet. -/
theorem lowerChar_ascii (c : Char) (hc : c.toNat < 128) : lowerChar c = [lowerAsciiChar c] := by
  refine forall_ascii (p := fun c => lowerChar c = [lowerAsciiChar c]) ?_ c hc
  decide

/-- Below 128 lower case neither makes a character plain nor keeps it from being so. -/
theorem isPlain_lowerAsciiChar (c : Char) (hc : c.toNat < 128) :
    IsPlain (lowerAsciiChar c) ↔ IsPlain c := by
  refine forall_ascii (p := fun c => IsPlain (lowerAsciiChar c) ↔ IsPlain c) ?_ c hc
  decide

/-- From 128 on a character is left as it is. -/
theorem lowerAsciiChar_of_not_ascii {c : Char} (hc : 128 ≤ c.toNat) : lowerAsciiChar c = c := by
  have hUpper : ¬ c.isUpper = true := by
    intro h
    have hCapital : 'A'.val ≤ c.val ∧ c.val ≤ 'Z'.val := of_decide_eq_true h
    have hRange : c.val.toNat ≤ 90 := UInt32.le_iff_toNat_le.1 hCapital.2
    have hBeyond : 128 ≤ c.val.toNat := hc
    omega
  rw [lowerAsciiChar, if_neg hUpper]

/-- Beyond ASCII only the Kelvin sign has an ASCII character as its lower-case form. -/
theorem lowerCode_beyond {n : Nat} (h : 128 ≤ n) : 128 ≤ lowerCode n ∨ lowerCode n = 107 := by
  -- Every row lies within ASCII, or leads beyond it, or is the one of the Kelvin sign.
  have hRows : ∀ row ∈ CaseTable.lowerShifts.toList, row.last < 128
      ∨ 128 ≤ row.first + row.offset ∨ (row.first = row.last ∧ row.first + row.offset = 107) := by
    decide +kernel
  unfold lowerCode
  split
  next row hRow =>
    have hMem := Array.mem_of_find?_eq_some hRow
    have hIn := Array.find?_some hRow
    simp only [Bool.and_eq_true, decide_eq_true_eq] at hIn
    have hRange := hRows row (Array.mem_toList_iff.2 hMem)
    show 128 ≤ ((n : Int) + row.offset).toNat ∨ ((n : Int) + row.offset).toNat = 107
    omega
  next => exact .inl h

/-- A valid number of a character is the number of that character. -/
theorem toNat_ofNat_of_isValidChar {n : Nat} (h : n.isValidChar) : (Char.ofNat n).toNat = n := by
  rw [Char.ofNat, dif_pos h]
  rfl

/-- No character from 128 on is plain. -/
theorem not_isPlain_ofNat {n : Nat} (h : 128 ≤ n) : ¬ IsPlain (Char.ofNat n) := by
  intro hPlain
  by_cases hValid : n.isValidChar
  · have hCode := toNat_ofNat_of_isValidChar hValid
    have hAscii := hPlain.1
    omega
  · -- A number that stands for no character is read as NUL.
    apply hPlain.2.2.2
    rw [Char.ofNat, dif_neg hValid]
    rfl

/-- **A character with a plain lower-case form is plain.** -/
theorem plain_of_lowerChar {c : Char} (h : ∀ d ∈ lowerChar c, IsPlain d) : IsPlain c := by
  by_cases hAscii : c.toNat < 128
  · rw [lowerChar_ascii c hAscii] at h
    exact (isPlain_lowerAsciiChar c hAscii).1 (h _ List.mem_cons_self)
  · exfalso
    unfold lowerChar at h
    rw [if_neg hAscii] at h
    by_cases hDotted : (c.toNat == 0x130) = true
    · -- The capital I with a dot leaves a combining dot.
      rw [if_pos hDotted] at h
      exact absurd (h (Char.ofNat 0x307) (by simp)) (by decide)
    · rw [if_neg hDotted] at h
      have hPlain := h _ List.mem_cons_self
      obtain hBeyond | hKelvin := lowerCode_beyond (Nat.le_of_not_lt hAscii)
      · exact not_isPlain_ofNat hBeyond hPlain
      · rw [hKelvin] at hPlain
        exact absurd hPlain (by decide)

/-! ## §2. Texts. -/

/-- The lower-case form of ASCII characters is that of each of them. -/
theorem lowerChars_ascii (before : List Char) {cs : List Char} (h : ∀ c ∈ cs, c.toNat < 128) :
    lowerChars before cs = cs.map lowerAsciiChar := by
  induction cs generalizing before with
  | nil => rfl
  | cons c cs ih =>
    have hc : c.toNat < 128 := h c List.mem_cons_self
    -- The one character whose lower-case form depends on its surroundings is not ASCII.
    have hSigma : c ≠ capitalSigma := by
      rintro rfl
      exact absurd hc (by decide)
    rw [lowerChars, if_neg hSigma, lowerChar_ascii c hc,
      ih (c :: before) fun d hd => h d (List.mem_cons_of_mem c hd)]
    rfl

/-- **A text with a plain lower-case form is plain.** -/
theorem plain_of_lowerChars {before cs : List Char} (h : ∀ d ∈ lowerChars before cs, IsPlain d) :
    ∀ c ∈ cs, IsPlain c := by
  induction cs generalizing before with
  | nil => exact fun c hc => absurd hc List.not_mem_nil
  | cons c cs ih =>
    rw [lowerChars] at h
    have hForm : ∀ d ∈ (if c = capitalSigma then
        [if startsCased before && !startsCased cs then 'ς' else 'σ'] else lowerChar c), IsPlain d :=
      fun d hd => h d (List.mem_append_left _ hd)
    have hRest := ih fun d hd => h d (List.mem_append_right _ hd)
    have hFirst : IsPlain c := by
      -- Neither form of the sigma is plain, so there is no capital one.
      by_cases hSigma : c = capitalSigma
      · rw [if_pos hSigma] at hForm
        have hSmall := hForm _ List.mem_cons_self
        by_cases hFinal : (startsCased before && !startsCased cs) = true
        · rw [if_pos hFinal] at hSmall
          exact absurd hSmall (by decide)
        · rw [if_neg hFinal] at hSmall
          exact absurd hSmall (by decide)
      · rw [if_neg hSigma] at hForm
        exact plain_of_lowerChar hForm
    intro d hd
    obtain rfl | hd := List.mem_cons.1 hd
    · exact hFirst
    · exact hRest d hd

/-- A text without k, of ASCII characters. -/
def Plain (s : String) : Prop :=
  ∀ c ∈ s.toList, IsPlain c

/-- The characters of a plain text are below 128. -/
theorem Plain.ascii {s : String} (h : Plain s) : ∀ c ∈ s.toList, c.toNat < 128 :=
  fun c hc => (h c hc).1

/-- The octets of a text are lowered one by one. -/
theorem toList_lowerAscii (s : String) : (lowerAscii s).toList = s.toList.map lowerAsciiChar := by
  rw [lowerAscii, String.toList_map]
  rfl

/-- A plain text stays plain in lower case. -/
theorem plain_lowerAscii {s : String} (h : Plain s) : Plain (lowerAscii s) := by
  intro c hc
  rw [toList_lowerAscii] at hc
  obtain ⟨d, hd, rfl⟩ := List.mem_map.1 hc
  exact (isPlain_lowerAsciiChar d (h.ascii d hd)).2 (h d hd)

/-- Of a plain text both lower cases are the same. -/
theorem lowercase_plain {s : String} (h : Plain s) : lowercase s = lowerAscii s := by
  apply String.toList_injective
  rw [toList_lowerAscii, lowercase, String.toList_ofList, lowerChars_ascii [] h.ascii]

/-- A text whose lower case is plain is plain. -/
theorem plain_of_lowercase {s : String} (h : Plain (lowercase s)) : Plain s := by
  unfold Plain at h
  rw [lowercase, String.toList_ofList] at h
  exact plain_of_lowerChars h

/-- **The texts with the lower-case form of a plain one** differ from it in the case of ASCII
letters only. -/
theorem lowerAscii_eq_of_lowercase_eq {s t : String} (hs : Plain s)
    (h : lowercase s = lowercase t) : Plain t ∧ lowerAscii s = lowerAscii t := by
  have hForm : Plain (lowercase t) := by
    rw [← h, lowercase_plain hs]
    exact plain_lowerAscii hs
  have ht := plain_of_lowercase hForm
  refine ⟨ht, ?_⟩
  rw [← lowercase_plain hs, ← lowercase_plain ht, h]

/-! ## §3. Lengths. -/

/-- The size of a text is the sum of the sizes of its characters. -/
theorem utf8ByteSize_ofList (cs : List Char) :
    (String.ofList cs).utf8ByteSize = (cs.map Char.utf8Size).sum := by
  induction cs with
  | nil => rfl
  | cons c cs ih =>
    rw [String.ofList_cons, String.utf8ByteSize_append, String.utf8ByteSize_singleton, ih,
      List.map_cons, List.sum_cons]

/-- The size of a text is the sum of the sizes of its characters, read off the text. -/
theorem utf8ByteSize_eq (s : String) : s.utf8ByteSize = (s.toList.map Char.utf8Size).sum := by
  rw [← utf8ByteSize_ofList, String.ofList_toList]

/-- Characters below 128 take one octet each. -/
theorem sum_utf8Size_ascii {cs : List Char} (h : ∀ c ∈ cs, c.toNat < 128) :
    (cs.map Char.utf8Size).sum = cs.length := by
  induction cs with
  | nil => rfl
  | cons c cs ih =>
    have hc : c.utf8Size = 1 := by
      refine forall_ascii (p := fun c => c.utf8Size = 1) ?_ c (h c List.mem_cons_self)
      decide
    rw [List.map_cons, List.sum_cons, ih fun d hd => h d (List.mem_cons_of_mem c hd), hc,
      List.length_cons, Nat.add_comm]

/-- No character takes less than one octet. -/
theorem length_le_sum_utf8Size (cs : List Char) : cs.length ≤ (cs.map Char.utf8Size).sum := by
  induction cs with
  | nil => exact Nat.le_refl 0
  | cons c cs ih =>
    have hc := c.utf8Size_pos
    rw [List.map_cons, List.sum_cons, List.length_cons]
    omega

end Homestead.Text
