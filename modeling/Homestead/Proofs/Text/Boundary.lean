/-
  Homestead.Proofs.Text.Boundary
  ──────────────────────────────
  **CUTTING AT A LIMIT AND BACKING OFF TO A WHOLE CHARACTER.**

  A text can be cut without a look at its characters: go to the limit, and
  go back octet by octet while the octet at hand continues a character.  The
  octets that continue a character are told apart from those that start one,
  so this ends at a place between two characters, and the place is the same
  one at which counting whole characters from the front stops.

  Main results:
    * `isBoundary_iff` — boundaries are the ends of runs of whole characters;
    * `take_backOff` — backing off cuts a text where `clip` does.
-/
import Homestead.Proofs.Text.Utf8

namespace Homestead.Text

/-! ## §1. Boundaries. -/

/-- Whether a character starts at the place, or the octets end there. -/
def isBoundary (octets : List UInt8) (place : Nat) : Bool :=
  match octets[place]? with
  | some b => !isContinuation b
  | none => place == octets.length

/-- The last boundary that is not behind the place, if there is one. -/
def backOff (octets : List UInt8) : Nat → Nat
  | 0 => 0
  | place + 1 => if isBoundary octets (place + 1) then place + 1 else backOff octets place

/-- Behind the first part of some octets, the boundaries are those of the second part. -/
theorem isBoundary_append (front back : List UInt8) (place : Nat) :
    isBoundary (front ++ back) (front.length + place) = isBoundary back place := by
  rw [isBoundary, isBoundary, List.getElem?_append_right (Nat.le_add_right _ _),
    Nat.add_sub_cancel_left, List.length_append]
  cases back[place]? with
  | some b => rfl
  | none => simp

/-! ## §2. Octets that start and octets that continue. -/

/-- An octet below the continuations, or above them, starts a character. -/
theorem isContinuation_eq_false {v : Nat} (h : v < 256) (hOutside : v < 0x80 ∨ 0xBF < v) :
    isContinuation (UInt8.ofNat v) = false := by
  rw [isContinuation, Bool.and_eq_false_iff, decide_eq_false_iff_not, decide_eq_false_iff_not,
    UInt8.le_iff_toNat_le, UInt8.le_iff_toNat_le, toNat_ofNat_of_lt h]
  show ¬ 128 ≤ v ∨ ¬ v ≤ 191
  omega

/-- **The first octet of a character, and no other one of them, starts a character.** -/
theorem utf8EncodeChar_eq (c : Char) : ∃ lead tail, String.utf8EncodeChar c = lead :: tail
    ∧ isContinuation lead = false ∧ ∀ b ∈ tail, isContinuation b = true := by
  unfold String.utf8EncodeChar
  simp only
  -- One to four octets, by the size of the code.
  split_ifs with h1 h2 h3
  · refine ⟨_, _, rfl, isContinuation_eq_false (by omega) (by omega), ?_⟩
    exact List.forall_mem_nil _
  · refine ⟨_, _, rfl, isContinuation_eq_false (by omega) (by omega), ?_⟩
    exact List.forall_mem_singleton.2 (isContinuation_octet c.val.toNat)
  · refine ⟨_, _, rfl, isContinuation_eq_false (by omega) (by omega), ?_⟩
    exact List.forall_mem_cons.2 ⟨isContinuation_octet (c.val.toNat / 64),
      List.forall_mem_singleton.2 (isContinuation_octet c.val.toNat)⟩
  · refine ⟨_, _, rfl, isContinuation_eq_false (by omega) (by omega), ?_⟩
    exact List.forall_mem_cons.2 ⟨isContinuation_octet (c.val.toNat / 4096),
      List.forall_mem_cons.2 ⟨isContinuation_octet (c.val.toNat / 64),
        List.forall_mem_singleton.2 (isContinuation_octet c.val.toNat)⟩⟩

/-- Of the places within a character, only the first one is a boundary. -/
theorem isBoundary_within (c : Char) (rest : List UInt8) {place : Nat} (h : place < c.utf8Size) :
    isBoundary (String.utf8EncodeChar c ++ rest) place = true ↔ place = 0 := by
  rw [← String.length_utf8EncodeChar] at h
  obtain ⟨lead, tail, hOctets, hLead, hTail⟩ := utf8EncodeChar_eq c
  rw [hOctets] at h ⊢
  cases place with
  | zero => simp [isBoundary, hLead]
  | succ place =>
    have hInside : place < tail.length := by simpa using h
    have hContinues : isContinuation tail[place] = true := hTail _ (List.getElem_mem hInside)
    simp [isBoundary, List.getElem?_append_left hInside, hInside, hContinues]

/-! ## §3. Boundaries of a text. -/

/-- **The boundaries of a text are the ends of its runs of whole leading characters.** -/
theorem isBoundary_iff {cs : List Char} {place : Nat} :
    isBoundary (utf8Octets cs) place = true
      ↔ ∃ run, run <+: cs ∧ (utf8Octets run).length = place := by
  induction cs generalizing place with
  | nil =>
    rw [show isBoundary (utf8Octets []) place = (place == 0) from rfl, beq_iff_eq]
    constructor
    · rintro rfl
      exact ⟨[], List.nil_prefix, rfl⟩
    · rintro ⟨run, hRun, rfl⟩
      rw [List.prefix_nil.1 hRun]
      rfl
  | cons c cs ih =>
    have hOctets : utf8Octets (c :: cs) = String.utf8EncodeChar c ++ utf8Octets cs := rfl
    rw [hOctets]
    -- Within the first character only its beginning is a boundary.
    by_cases hWithin : place < c.utf8Size
    · rw [isBoundary_within c _ hWithin]
      constructor
      · rintro rfl
        exact ⟨[], List.nil_prefix, rfl⟩
      · rintro ⟨run, hRun, rfl⟩
        cases run with
        | nil => rfl
        | cons d run =>
          obtain ⟨rfl, _⟩ := List.cons_prefix_cons.1 hRun
          rw [utf8Octets_cons_length] at hWithin
          omega
    · -- Behind the first character the text goes on as its tail does.
      obtain ⟨further, rfl⟩ := Nat.exists_eq_add_of_le (Nat.le_of_not_lt hWithin)
      have hBehind := isBoundary_append (String.utf8EncodeChar c) (utf8Octets cs) further
      rw [String.length_utf8EncodeChar] at hBehind
      rw [hBehind, ih]
      have hSize := c.utf8Size_pos
      constructor
      · rintro ⟨run, hRun, rfl⟩
        exact ⟨c :: run, (List.prefix_cons_inj c).2 hRun, utf8Octets_cons_length c run⟩
      · rintro ⟨run, hRun, hLength⟩
        cases run with
        | nil =>
          have : (utf8Octets []).length = 0 := rfl
          omega
        | cons d run =>
          obtain ⟨rfl, hTail⟩ := List.cons_prefix_cons.1 hRun
          rw [utf8Octets_cons_length] at hLength
          exact ⟨run, hTail, by omega⟩

/-! ## §4. Backing off. -/

/-- Backing off never goes forward. -/
theorem backOff_le (octets : List UInt8) (place : Nat) : backOff octets place ≤ place := by
  induction place with
  | zero => exact Nat.le_refl 0
  | succ place ih =>
    rw [backOff]
    split
    · exact Nat.le_refl _
    · omega

/-- Backing off stops at the first boundary that it comes to. -/
theorem le_backOff {octets : List UInt8} {boundary place : Nat}
    (hBoundary : isBoundary octets boundary = true) (h : boundary ≤ place) :
    boundary ≤ backOff octets place := by
  induction place with
  | zero => exact h
  | succ place ih =>
    rw [backOff]
    split
    · exact h
    next hNone =>
      -- The place itself is no boundary, so that the boundary is before it.
      have hOther : boundary ≠ place + 1 := by
        rintro rfl
        exact hNone hBoundary
      exact ih (by omega)

/-- In a text, backing off ends at a boundary. -/
theorem isBoundary_backOff (cs : List Char) (place : Nat) :
    isBoundary (utf8Octets cs) (backOff (utf8Octets cs) place) = true := by
  induction place with
  | zero => exact isBoundary_iff.2 ⟨[], List.nil_prefix, rfl⟩
  | succ place ih =>
    rw [backOff]
    split
    next hHere => exact hHere
    next => exact ih

/-- The octets of a leading run lead. -/
theorem utf8Octets_mono {run cs : List Char} (h : run <+: cs) :
    utf8Octets run <+: utf8Octets cs := by
  obtain ⟨more, rfl⟩ := h
  exact ⟨utf8Octets more, List.flatMap_append.symm⟩

/-- **Going to the limit and backing off cuts a text where counting whole characters does.** -/
theorem take_backOff (budget : Nat) (cs : List Char) :
    (utf8Octets cs).take (backOff (utf8Octets cs) (min (utf8Octets cs).length budget))
      = utf8Octets (clip budget cs) := by
  have hCut := clip_isLongestFit budget cs
  have hStart := backOff_le (utf8Octets cs) (min (utf8Octets cs).length budget)
  obtain ⟨run, hRun, hLength⟩ :=
    isBoundary_iff.1 (isBoundary_backOff cs (min (utf8Octets cs).length budget))
  -- The place is the end of a run that fits, so that it is not behind the longest one ...
  have hLeads : utf8Octets run <+: utf8Octets (clip budget cs) :=
    utf8Octets_mono (hCut.longest run hRun (by omega))
  -- ... and the end of the longest one is a boundary before the limit.
  have hLimit : (utf8Octets (clip budget cs)).length ≤ min (utf8Octets cs).length budget :=
    Nat.le_min.2 ⟨(utf8Octets_mono hCut.leads).length_le, hCut.fits⟩
  have hLongest : (utf8Octets (clip budget cs)).length ≤ (utf8Octets run).length := by
    rw [hLength]
    exact le_backOff (isBoundary_iff.2 ⟨_, hCut.leads, rfl⟩) hLimit
  rw [← hLeads.eq_of_length_le hLongest, ← hLength]
  exact (List.prefix_iff_eq_take.1 (utf8Octets_mono hRun)).symm

end Homestead.Text
