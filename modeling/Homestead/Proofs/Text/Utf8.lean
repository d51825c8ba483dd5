/-
  Homestead.Proofs.Text.Utf8
  ──────────────────────────
  **WHAT IS WRITTEN AS OCTETS READS BACK.**

  Writing a character gives between one and four octets, and reading takes
  exactly these and gives the character.  So a text that was written reads
  back, whatever follows it, and no replacement character comes in.

  Main results:
    * `readChars_utf8Octets` — reading undoes writing;
    * `clip_isLongestFit` — cutting to a budget keeps the longest run of
      whole leading characters that fits it.
-/
import Homestead.Text.Utf8
import Mathlib.Data.List.Basic

namespace Homestead.Text

/-! ## §1. Octets as numbers. -/

theorem toNat_ofNat_of_lt {n : Nat} (h : n < 256) : (UInt8.ofNat n).toNat = n := by
  simp [UInt8.toNat_ofNat', Nat.mod_eq_of_lt h]

/-- An octet with six low bits of a code is one that continues. -/
theorem isContinuation_octet (n : Nat) :
    isContinuation (UInt8.ofNat (n % 64 + 0x80)) = true := by
  have h : (UInt8.ofNat (n % 64 + 0x80)).toNat = n % 64 + 0x80 := toNat_ofNat_of_lt (by omega)
  simp only [isContinuation, Bool.and_eq_true, decide_eq_true_eq, UInt8.le_iff_toNat_le, h]
  constructor
  · show 128 ≤ _
    omega
  · show _ ≤ 191
    omega

/-- Its low bits are read back. -/
theorem lowBits_octet (n : Nat) : lowBits (UInt8.ofNat (n % 64 + 0x80)) = n % 64 := by
  rw [lowBits, toNat_ofNat_of_lt (by omega)]
  omega

/-- Which second octets follow a lead octet, in numbers. -/
theorem isSecond_octet (lead n : Nat) (hl : lead < 256)
    (hE0 : lead = 0xE0 → 0x20 ≤ n % 64) (hED : lead = 0xED → n % 64 ≤ 0x1F)
    (hF0 : lead = 0xF0 → 0x10 ≤ n % 64) (hF4 : lead = 0xF4 → n % 64 ≤ 0xF) :
    isSecond (UInt8.ofNat lead) (UInt8.ofNat (n % 64 + 0x80)) = true := by
  have hn : (UInt8.ofNat (n % 64 + 0x80)).toNat = n % 64 + 0x80 := toNat_ofNat_of_lt (by omega)
  have hLead : ∀ k : UInt8, (UInt8.ofNat lead == k) = decide (lead = k.toNat) := by
    intro k
    rw [Bool.eq_iff_iff, beq_iff_eq, decide_eq_true_eq, ← UInt8.toNat_inj, toNat_ofNat_of_lt hl]
  have hRange : ∀ low high : UInt8, low.toNat ≤ n % 64 + 0x80 → n % 64 + 0x80 ≤ high.toNat →
      (low ≤ UInt8.ofNat (n % 64 + 0x80) && UInt8.ofNat (n % 64 + 0x80) ≤ high) = true := by
    intro low high h h'
    rw [Bool.and_eq_true, decide_eq_true_eq, decide_eq_true_eq, UInt8.le_iff_toNat_le,
      UInt8.le_iff_toNat_le, hn]
    exact ⟨h, h'⟩
  simp only [isSecond, hLead, decide_eq_true_eq]
  -- Four lead octets narrow the range of the second one.
  split_ifs with h1 h2 h3 h4
  · exact hRange 0xA0 0xBF (by have := hE0 h1; simp; omega) (by simp; omega)
  · exact hRange 0x80 0x9F (by simp) (by have := hED h2; simp; omega)
  · exact hRange 0x90 0xBF (by have := hF0 h3; simp; omega) (by simp; omega)
  · exact hRange 0x80 0x8F (by simp) (by have := hF4 h4; simp; omega)
  · exact isContinuation_octet n

/-! ## §2. One character, by the number of its octets. -/

/-- A code of one octet is read back. -/
theorem readChar_one {v : Nat} (h : v ≤ 0x7f) (rest : List UInt8) :
    readChar (UInt8.ofNat v) rest = (Char.ofNat v, rest) := by
  have hv : (UInt8.ofNat v).toNat = v := toNat_ofNat_of_lt (by omega)
  have hl : UInt8.ofNat v < 0x80 := by
    rw [UInt8.lt_iff_toNat_lt, hv]
    show v < 128
    omega
  unfold readChar
  rw [if_pos hl, hv]

/-- A code of two octets is read back. -/
theorem readChar_two {v : Nat} (h : 0x7f < v) (h' : v ≤ 0x7ff) (rest : List UInt8) :
    readChar (UInt8.ofNat (v / 64 % 0x20 + 0xc0)) (UInt8.ofNat (v % 0x40 + 0x80) :: rest)
      = (Char.ofNat v, rest) := by
  have hv : (UInt8.ofNat (v / 64 % 0x20 + 0xc0)).toNat = v / 64 % 0x20 + 0xc0 :=
    toNat_ofNat_of_lt (by omega)
  unfold readChar
  simp only [UInt8.lt_iff_toNat_lt, UInt8.le_iff_toNat_le, hv, Bool.and_eq_true, decide_eq_true_eq]
  rw [if_neg (by simp), if_pos (by simp; omega), if_pos (isContinuation_octet v), lowBits_octet]
  congr 2
  omega

/-- A code of three octets is read back, if it is no surrogate. -/
theorem readChar_three {v : Nat} (h : 0x7ff < v) (h' : v ≤ 0xffff)
    (hs : v < 0xd800 ∨ 0xdfff < v) (rest : List UInt8) :
    readChar (UInt8.ofNat (v / 4096 % 0x10 + 0xe0))
        (UInt8.ofNat (v / 64 % 0x40 + 0x80) :: UInt8.ofNat (v % 0x40 + 0x80) :: rest)
      = (Char.ofNat v, rest) := by
  have hv : (UInt8.ofNat (v / 4096 % 0x10 + 0xe0)).toNat = v / 4096 % 0x10 + 0xe0 :=
    toNat_ofNat_of_lt (by omega)
  -- A surrogate would fail here: its second octet is out of range.
  have hSecond := isSecond_octet (v / 4096 % 0x10 + 0xe0) (v / 64)
    (by omega) (by omega) (by omega) (by omega) (by omega)
  unfold readChar
  simp only [UInt8.lt_iff_toNat_lt, UInt8.le_iff_toNat_le, hv, Bool.and_eq_true, decide_eq_true_eq]
  rw [if_neg (by simp), if_neg (by simp), if_pos (by simp; omega), if_pos hSecond,
    if_pos (isContinuation_octet v), lowBits_octet, lowBits_octet]
  congr 2
  omega

/-- A code of four octets is read back. -/
theorem readChar_four {v : Nat} (h : 0xffff < v) (h' : v < 0x110000) (rest : List UInt8) :
    readChar (UInt8.ofNat (v / 262144 % 0x08 + 0xf0))
        (UInt8.ofNat (v / 4096 % 0x40 + 0x80) :: UInt8.ofNat (v / 64 % 0x40 + 0x80)
          :: UInt8.ofNat (v % 0x40 + 0x80) :: rest)
      = (Char.ofNat v, rest) := by
  have hv : (UInt8.ofNat (v / 262144 % 0x08 + 0xf0)).toNat = v / 262144 % 0x08 + 0xf0 :=
    toNat_ofNat_of_lt (by omega)
  -- The second octet is what tells codes that are too short or too large from good ones.
  have hSecond := isSecond_octet (v / 262144 % 0x08 + 0xf0) (v / 4096)
    (by omega) (by omega) (by omega) (by omega) (by omega)
  unfold readChar
  simp only [UInt8.lt_iff_toNat_lt, UInt8.le_iff_toNat_le, hv, Bool.and_eq_true, decide_eq_true_eq]
  -- The first octet is too large for a code of one, two or three octets.
  rw [if_neg (by simp), if_neg (by simp), if_neg (by simp), if_pos (by simp; omega),
    if_pos hSecond, if_pos (isContinuation_octet _), if_pos (isContinuation_octet v),
    lowBits_octet, lowBits_octet, lowBits_octet]
  congr 2
  omega

/-! ## §3. Texts. -/

/-- A character that was written reads back, whatever follows it. -/
theorem readChars_utf8EncodeChar (c : Char) (rest : List UInt8) :
    readChars (String.utf8EncodeChar c ++ rest) = c :: readChars rest := by
  have hc : Char.ofNat c.val.toNat = c := Char.ofNat_toNat c
  -- A character is no surrogate, so that a lead octet ED has a low second octet.
  have hValid : c.val.toNat < 0xd800 ∨ (0xdfff < c.val.toNat ∧ c.val.toNat < 0x110000) := c.valid
  unfold String.utf8EncodeChar
  simp only
  split_ifs with h1 h2 h3
  · rw [List.cons_append, readChars, readChar_one h1, hc]
    rfl
  · rw [List.cons_append, readChars, List.cons_append, readChar_two (by omega) h2, hc]
    rfl
  · rw [List.cons_append, readChars, List.cons_append, List.cons_append,
      readChar_three (by omega) h3 (by omega), hc]
    rfl
  · rw [List.cons_append, readChars, List.cons_append, List.cons_append, List.cons_append,
      readChar_four (by omega) (by omega), hc]
    rfl

/-- **Reading undoes writing.** -/
theorem readChars_utf8Octets (cs : List Char) : readChars (utf8Octets cs) = cs := by
  induction cs with
  | nil => rw [utf8Octets, List.flatMap_nil, readChars]
  | cons c cs ih =>
    show readChars (String.utf8EncodeChar c ++ utf8Octets cs) = _
    rw [readChars_utf8EncodeChar, ih]

/-- Characters that are written are read back, by induction over them. -/
theorem ofOctets_utf8Octets (cs : List Char) :
    ofOctets (utf8Octets cs) = String.ofList cs := by
  rw [ofOctets, readChars_utf8Octets]

/-! ## §4. Cutting to a budget. -/

/-- The first character takes as many octets as its size. -/
theorem utf8Octets_cons_length (c : Char) (cs : List Char) :
    (utf8Octets (c :: cs)).length = c.utf8Size + (utf8Octets cs).length := by
  rw [utf8Octets, List.flatMap_cons, List.length_append, String.length_utf8EncodeChar, utf8Octets]

/-- `cut` is the longest run of whole leading characters of `cs` whose octets fit the budget. -/
structure IsLongestFit (budget : Nat) (cs cut : List Char) : Prop where
  /-- It leads the text. -/
  leads : cut <+: cs
  /-- It fits. -/
  fits : (utf8Octets cut).length ≤ budget
  /-- Every run that leads the text and fits is part of it. -/
  longest : ∀ run, run <+: cs → (utf8Octets run).length ≤ budget → run <+: cut

/-- **Cutting keeps the longest run that fits.** -/
theorem clip_isLongestFit (budget : Nat) (cs : List Char) :
    IsLongestFit budget cs (clip budget cs) := by
  induction cs generalizing budget with
  | nil => exact ⟨List.prefix_rfl, Nat.zero_le _, fun run h _ => h⟩
  | cons c cs ih =>
    unfold clip
    split
    next hc =>
      obtain ⟨hLeads, hFits, hLongest⟩ := ih (budget - c.utf8Size)
      refine ⟨(List.prefix_cons_inj c).2 hLeads, ?_, ?_⟩
      · rw [utf8Octets_cons_length]
        omega
      · -- A longer run would be one of the tail too.
        intro run hRun hSize
        cases run with
        | nil => exact List.nil_prefix
        | cons d run =>
          obtain ⟨rfl, hTail⟩ := List.cons_prefix_cons.1 hRun
          rw [utf8Octets_cons_length] at hSize
          exact (List.prefix_cons_inj d).2 (hLongest run hTail (by omega))
    next hc =>
      -- Not even the first character fits.
      refine ⟨List.nil_prefix, Nat.zero_le _, ?_⟩
      intro run hRun hSize
      cases run with
      | nil => exact List.nil_prefix
      | cons d run =>
        obtain ⟨rfl, _⟩ := List.cons_prefix_cons.1 hRun
        rw [utf8Octets_cons_length] at hSize
        omega

/-- **What fits is not cut.** -/
theorem clip_eq_self {budget : Nat} {cs : List Char} (h : (utf8Octets cs).length ≤ budget) :
    clip budget cs = cs := by
  have hCut := clip_isLongestFit budget cs
  exact hCut.leads.eq_of_length_le (hCut.longest cs List.prefix_rfl h).length_le

end Homestead.Text
