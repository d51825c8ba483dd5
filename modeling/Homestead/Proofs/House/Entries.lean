/-
  Homestead.Proofs.House.Entries
  ──────────────────────────────
  **WHAT A TEXT SAYS ABOUT WHO MAY ENTER.**

  The pieces of a text are what stands between separators.  A piece that
  counts is an entry, which names a guild or a character or is a pattern.
  Line feeds and commas separate alike, so the entries of a text are those
  of its lines, one line after the other, and a line has more entries behind
  a comma whatever stands before it: what is remarked in a line ends at the
  first comma.

  Main results:
    * `mem_pieces_iff` — the pieces of a text, read off the text;
    * `AccessEntry.mem_ofText_iff` — which entries are written in a text;
    * `AccessEntry.ofText_intercalate` — the entries of lines;
    * `AccessEntry.entries_of_remark` — the entries of a line with a remark.
-/
import Homestead.House.AccessList
import Mathlib.Data.List.TakeWhile
import Mathlib.Tactic.SplitIfs

namespace Homestead

/-! ## §1. Trimming. -/

namespace Text

/-- What trimming leaves starts where the blank characters in front end. -/
theorem head?_trimChars (cs : List Char) :
    (trimChars cs).head? = (cs.dropWhile isBlank).head? := by
  unfold trimChars
  cases hRest : cs.dropWhile isBlank with
  | nil => rfl
  | cons c rest =>
    have hFirst : isBlank c = false := by
      have hNot := List.head?_dropWhile_not isBlank cs
      rwa [hRest] at hNot
    -- The first character stops the search from the back at the latest.
    rw [List.reverse_cons, List.dropWhile_append]
    split_ifs
    · rw [List.dropWhile_cons_of_neg (by rw [hFirst]; decide)]
      rfl
    · rw [List.reverse_append]
      rfl

end Text

namespace AccessEntry

/-! ## §2. Pieces. -/

/-- A piece of a text: it has no separators in it, and stands between separators or ends of the
text. -/
structure IsPiece (text piece : List Char) : Prop where
  /-- There is no separator in it. -/
  whole : ∀ c ∈ piece, isSeparator c = false
  /-- It stands between separators or ends. -/
  between : ∃ before after, text = before ++ piece ++ after
    ∧ (before = [] ∨ ∃ front s, before = front ++ [s] ∧ isSeparator s = true)
    ∧ (after = [] ∨ ∃ s back, after = s :: back ∧ isSeparator s = true)

variable {text piece x y : List Char} {s : Char}

/-- A text has at least one piece. -/
theorem pieces_ne_nil (text : List Char) : pieces text ≠ [] := by
  cases text with
  | nil => exact List.cons_ne_nil _ _
  | cons c text =>
    rw [pieces]
    split_ifs
    · exact List.cons_ne_nil _ _
    · split <;> exact List.cons_ne_nil _ _

/-- **A separator parts the pieces**: everything about pieces follows from this. -/
theorem pieces_append_cons (hs : isSeparator s = true) (x y : List Char) :
    pieces (x ++ s :: y) = pieces x ++ pieces y := by
  induction x with
  | nil => exact if_pos hs
  | cons c x ih =>
    rw [List.cons_append, pieces, pieces, ih]
    split_ifs
    · rfl
    · obtain ⟨piece, others, hx⟩ := List.exists_cons_of_ne_nil (pieces_ne_nil x)
      rw [hx]
      rfl

/-- A text without separators is one piece. -/
theorem pieces_of_forall (h : ∀ c ∈ x, isSeparator c = false) : pieces x = [x] := by
  induction x with
  | nil => rfl
  | cons c x ih =>
    obtain ⟨hc, hx⟩ := List.forall_mem_cons.1 h
    rw [pieces, if_neg (by rw [hc]; decide), ih hx]

/-- A text has no separator, or there is a first one. -/
theorem forall_or_exists_first (text : List Char) :
    (∀ c ∈ text, isSeparator c = false)
      ∨ ∃ x s y, text = x ++ s :: y ∧ (∀ c ∈ x, isSeparator c = false) ∧ isSeparator s = true := by
  induction text with
  | nil => exact .inl fun _ hd => (List.not_mem_nil hd).elim
  | cons c text ih =>
    cases hc : isSeparator c with
    | true => exact .inr ⟨[], c, text, rfl, fun _ hd => (List.not_mem_nil hd).elim, hc⟩
    | false =>
      obtain hAll | ⟨x, s, y, rfl, hx, hs⟩ := ih
      · exact .inl (List.forall_mem_cons.2 ⟨hc, hAll⟩)
      · exact .inr ⟨c :: x, s, y, rfl, List.forall_mem_cons.2 ⟨hc, hx⟩, hs⟩

/-- What stands between two separators is among the pieces. -/
theorem IsPiece.mem_pieces (h : IsPiece text piece) : piece ∈ pieces text := by
  obtain ⟨hWhole, before, after, rfl, hBefore, hAfter⟩ := h
  -- What stands up to the first separator is the first piece.
  have hFirst : piece ∈ pieces (piece ++ after) := by
    obtain rfl | ⟨s, back, rfl, hs⟩ := hAfter
    · rw [List.append_nil, pieces_of_forall hWhole]
      exact List.mem_cons_self
    · rw [pieces_append_cons hs, pieces_of_forall hWhole]
      exact List.mem_cons_self
  obtain rfl | ⟨front, s, rfl, hs⟩ := hBefore
  · exact hFirst
  · rw [List.append_assoc, List.append_assoc, List.singleton_append, pieces_append_cons hs]
    exact List.mem_append_right _ hFirst

/-- A piece stands between two separators. -/
theorem isPiece_of_mem (h : piece ∈ pieces text) : IsPiece text piece := by
  -- From the first piece on, which ends at the first separator.
  induction hLength : text.length using Nat.strongRecOn generalizing text with
  | ind n ih =>
    subst hLength
    obtain hAll | ⟨x, s, y, rfl, hx, hs⟩ := forall_or_exists_first text
    · rw [pieces_of_forall hAll, List.mem_singleton] at h
      subst h
      exact ⟨hAll, [], [], by simp, .inl rfl, .inl rfl⟩
    · rw [pieces_append_cons hs, pieces_of_forall hx, List.singleton_append, List.mem_cons] at h
      obtain rfl | hLater := h
      · exact ⟨hx, [], s :: y, by simp, .inl rfl, .inr ⟨s, y, rfl, hs⟩⟩
      · obtain ⟨hWhole, before, after, rfl, hBefore, hAfter⟩ :=
          ih y.length (by rw [List.length_append, List.length_cons]; omega) hLater rfl
        refine ⟨hWhole, x ++ s :: before, after, by simp, .inr ?_, hAfter⟩
        obtain rfl | ⟨front, s', rfl, hs'⟩ := hBefore
        · exact ⟨x, s, rfl, hs⟩
        · exact ⟨x ++ s :: front, s', by simp, hs'⟩

/-- **The pieces of a text** are what stands in it between separators. -/
theorem mem_pieces_iff : piece ∈ pieces text ↔ IsPiece text piece :=
  ⟨isPiece_of_mem, IsPiece.mem_pieces⟩

/-! ## §3. Entries. -/

/-- What a trimmed piece of text is an entry for.  A piece with nothing in it, with `#` in front, or
of more than 100 octets is none. -/
inductive IsEntry (piece : String) : AccessEntry → Prop where
  /-- A piece with `@` in front names a guild. -/
  | guild {name : List Char} (hLength : piece.utf8ByteSize ≤ maxLength)
    (hFirst : piece.toList = '@' :: name) : IsEntry piece (.guild (Text.trim (String.ofList name)))
  /-- A piece with `!`, `*` or `?` anywhere is a pattern. -/
  | expression {c : Char} {cs : List Char} (hLength : piece.utf8ByteSize ≤ maxLength)
    (hPiece : piece.toList = c :: cs) (hRemark : c ≠ '#') (hGuild : c ≠ '@')
    (hMark : ∃ d ∈ c :: cs, d = '!' ∨ d = '*' ∨ d = '?') : IsEntry piece (.expression piece)
  /-- Any other piece names a character. -/
  | player {c : Char} {cs : List Char} (hLength : piece.utf8ByteSize ≤ maxLength)
    (hPiece : piece.toList = c :: cs) (hRemark : c ≠ '#') (hGuild : c ≠ '@')
    (hMark : ∀ d ∈ c :: cs, d ≠ '!' ∧ d ≠ '*' ∧ d ≠ '?') : IsEntry piece (.player piece)

/-- The entry is written in the text. -/
def WrittenIn (text : String) (entry : AccessEntry) : Prop :=
  ∃ piece, IsPiece text.toList piece ∧ IsEntry (Text.trim (String.ofList piece)) entry

/-- The marks of an expression are an exclamation mark, a star and a question mark. -/
theorem isPatternChar_iff {c : Char} : isPatternChar c = true ↔ c = '!' ∨ c = '*' ∨ c = '?' := by
  rw [isPatternChar, Bool.or_eq_true, Bool.or_eq_true, beq_iff_eq, beq_iff_eq, beq_iff_eq, or_assoc]

/-- **Which entry a trimmed piece is.** -/
theorem ofPiece?_eq_some_iff {piece : String} {entry : AccessEntry} :
    ofPiece? piece = some entry ↔ IsEntry piece entry := by
  have hAny : ∀ cs : List Char,
      cs.any isPatternChar = true ↔ ∃ d ∈ cs, d = '!' ∨ d = '*' ∨ d = '?' := by
    intro cs
    simp only [List.any_eq_true, isPatternChar_iff]
  -- The branches of the reader are taken in turn, and their refusals are what the judgement asks
  -- for.
  constructor
  · intro h
    unfold ofPiece? at h
    split at h
    next => cases h
    next => cases h
    next name hFirst =>
      split_ifs at h with hLong
      obtain rfl := Option.some_inj.1 h
      exact .guild (Nat.le_of_not_gt hLong) hFirst
    next hEmpty hRemark hGuild =>
      obtain ⟨c, cs, hPiece⟩ := List.exists_cons_of_ne_nil hEmpty
      -- The two branches before this one were not taken.
      have hNotRemark : c ≠ '#' := fun hc => hRemark cs (hc ▸ hPiece)
      have hNotGuild : c ≠ '@' := fun hc => hGuild cs (hc ▸ hPiece)
      rw [hPiece] at h
      split_ifs at h with hLong hMark
      · obtain rfl := Option.some_inj.1 h
        exact .expression (Nat.le_of_not_gt hLong) hPiece hNotRemark hNotGuild ((hAny _).1 hMark)
      · obtain rfl := Option.some_inj.1 h
        refine .player (Nat.le_of_not_gt hLong) hPiece hNotRemark hNotGuild fun d hd => ?_
        have hNone := fun hOne => hMark ((hAny _).2 ⟨d, hd, hOne⟩)
        exact ⟨fun h => hNone (.inl h), fun h => hNone (.inr (.inl h)),
          fun h => hNone (.inr (.inr h))⟩
  · intro h
    cases h with
    | guild hLength hFirst =>
      unfold ofPiece?
      rw [hFirst]
      exact if_neg (Nat.not_lt_of_le hLength)
    | expression hLength hPiece hRemark hGuild hMark =>
      unfold ofPiece?
      rw [hPiece]
      split
      next hEq => cases hEq
      next hEq => exact absurd (List.cons.inj hEq).1 hRemark
      next hEq => exact absurd (List.cons.inj hEq).1 hGuild
      next => rw [if_neg (Nat.not_lt_of_le hLength), if_pos ((hAny _).2 hMark)]
    | player hLength hPiece hRemark hGuild hMark =>
      unfold ofPiece?
      rw [hPiece]
      split
      next hEq => cases hEq
      next hEq => exact absurd (List.cons.inj hEq).1 hRemark
      next hEq => exact absurd (List.cons.inj hEq).1 hGuild
      next =>
        rw [if_neg (Nat.not_lt_of_le hLength), if_neg]
        rw [hAny]
        rintro ⟨d, hd, hOne⟩
        obtain ⟨h₁, h₂, h₃⟩ := hMark d hd
        exact hOne.elim h₁ (·.elim h₂ h₃)

/-- A piece with `#` in front is no entry. -/
theorem ofPiece?_of_head?_eq {piece : String} (h : piece.toList.head? = some '#') :
    ofPiece? piece = none := by
  cases hPiece : piece.toList with
  -- An empty piece has no first character.
  | nil =>
    rw [hPiece] at h
    cases h
  | cons c cs =>
    rw [hPiece] at h
    obtain rfl := Option.some_inj.1 h
    unfold ofPiece?
    rw [hPiece]
    rfl

/-- The entries in a list of characters, in order. -/
def entries (text : List Char) : List AccessEntry :=
  (pieces text).filterMap fun piece => ofPiece? (Text.trim (String.ofList piece))

theorem ofText_ofList (text : List Char) : ofText (String.ofList text) = entries text := by
  rw [ofText, String.toList_ofList, entries]

/-- An entry comes from a piece of the text. -/
theorem exists_isEntry {text : List Char} {entry : AccessEntry} (h : entry ∈ entries text) :
    ∃ piece, IsEntry piece entry := by
  obtain ⟨piece, -, hPiece⟩ := List.mem_filterMap.1 h
  exact ⟨_, ofPiece?_eq_some_iff.1 hPiece⟩

/-- **The entries that are read from a text** are those that are written in it. -/
theorem mem_ofText_iff {text : String} {entry : AccessEntry} :
    entry ∈ ofText text ↔ entry.WrittenIn text := by
  rw [ofText, List.mem_filterMap]
  simp only [mem_pieces_iff, ofPiece?_eq_some_iff]
  rfl

/-! ## §4. Lines and remarks. -/

/-- At a separator the entries fall into those before and those behind. -/
theorem entries_append_cons (hs : isSeparator s = true) (x y : List Char) :
    entries (x ++ s :: y) = entries x ++ entries y := by
  rw [entries, pieces_append_cons hs, List.filterMap_append]
  rfl

/-- **The entries of a text are those of its lines**, one after the other. -/
theorem entries_intercalate (lines : List (List Char)) :
    entries (['\n'].intercalate lines) = lines.flatMap entries := by
  induction lines with
  | nil => rfl
  | cons line lines ih =>
    cases lines with
    | nil => rw [List.intercalate_singleton, List.flatMap_cons, List.flatMap_nil, List.append_nil]
    | cons next lines =>
      rw [List.intercalate_cons_cons, List.append_assoc, List.singleton_append,
        entries_append_cons rfl, ih]
      rfl

/-- The line is a remark: `#` is the first character of it that is not blank. -/
def IsRemark (line : List Char) : Prop :=
  '\n' ∉ line ∧ (Text.trimChars line).head? = some '#'

instance (line : List Char) : Decidable (IsRemark line) :=
  inferInstanceAs (Decidable (_ ∧ _))

/-- What stands in a line behind its first comma. -/
def behindComma (line : List Char) : List Char :=
  (line.dropWhile (· != ',')).tail

/-- What stands before the first comma of a remark is a remark. -/
theorem IsRemark.takeWhile {line : List Char} (h : IsRemark line) :
    ofPiece? (Text.trim (String.ofList (line.takeWhile (· != ',')))) = none := by
  -- Its first mark is in front of the first comma: only blanks may come before.
  have hFirst : (Text.trimChars (line.takeWhile (· != ','))).head? = some '#' := by
    have hLine := h.2
    rw [Text.head?_trimChars] at hLine ⊢
    clear h
    induction line with
    | nil => cases hLine
    | cons c line ih =>
      by_cases hBlank : Text.isBlank c = true
      · have hComma : (c != ',') = true := by
          rw [bne_iff_ne]
          rintro rfl
          cases hBlank
        rw [List.dropWhile_cons_of_pos hBlank] at hLine
        rw [List.takeWhile_cons, if_pos hComma, List.dropWhile_cons_of_pos hBlank]
        exact ih hLine
      · rw [List.dropWhile_cons_of_neg hBlank] at hLine
        obtain rfl := Option.some_inj.1 hLine
        rfl
  refine ofPiece?_of_head?_eq ?_
  rwa [Text.trim, String.toList_ofList, String.toList_ofList]

/-- **A remark ends at the first comma**: the entries of a line with a remark are those behind. -/
theorem entries_of_remark {line : List Char} (h : IsRemark line) :
    entries line = entries (behindComma line) := by
  -- What stands before the comma is one piece, and a remark.
  have hRemark : entries (line.takeWhile (· != ',')) = [] := by
    have hWhole : ∀ c ∈ line.takeWhile (· != ','), isSeparator c = false := by
      intro c hc
      have hComma := List.mem_takeWhile_imp hc
      have hLine : c ≠ '\n' := fun hEq => h.1 (hEq ▸ List.takeWhile_subset _ hc)
      rw [isSeparator, Bool.or_eq_false_iff, beq_eq_false_iff_ne, beq_eq_false_iff_ne]
      exact ⟨hLine, bne_iff_ne.1 hComma⟩
    rw [entries, pieces_of_forall hWhole, List.filterMap_cons, h.takeWhile]
    rfl
  unfold behindComma
  -- Without a comma the whole line is the remark.
  cases hBehind : line.dropWhile (· != ',') with
  | nil =>
    have hLine := List.takeWhile_append_dropWhile (p := (· != ',')) (l := line)
    rw [hBehind, List.append_nil] at hLine
    rw [← hLine, hRemark]
    rfl
  | cons c behind =>
    have hComma : c = ',' := by
      have hNot := List.head?_dropWhile_not (· != ',') line
      rw [hBehind] at hNot
      simpa using hNot
    have hLine := List.takeWhile_append_dropWhile (p := (· != ',')) (l := line)
    rw [hBehind] at hLine
    rw [← hLine, entries_append_cons (by rw [hComma]; rfl), hRemark, List.nil_append]
    rfl

end AccessEntry

end Homestead
