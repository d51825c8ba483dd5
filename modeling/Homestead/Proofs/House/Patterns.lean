/-
  Homestead.Proofs.House.Patterns
  ───────────────────────────────
  **WHICH NAMES A PATTERN STANDS FOR.**

  A name is spelled by a pattern if it is made of one run of characters for
  each character of the pattern, in order: `*` gives any run of one line,
  `?` at most one character of a line, and every other character itself.
  The rows of answers by which names are matched find out just that, for
  all endings of a name at once.

  A pattern can be written as a regular expression: `.*` for `*`, `.?` for
  `?`, every other character for itself, with a backslash in front where
  it has another meaning in such expressions, and an anchor at either end.
  The expression is found in the names that the pattern spells, and in no
  others.

  `Regex` has what is documented of the language of regular expressions
  for the few signs that occur here, when no option is set:
    * `.` matches any one character but a line feed;
    * `^` matches in front of the text and `$` behind it, and neither of
      them at a line feed inside it;
    * `*` after a sign matches it any number of times, `?` at most once;
    * a backslash in front of a sign with a meaning of its own makes it
      match itself, and every other character matches itself;
    * an expression is found in a text if some piece of it matches.
  Which of several pieces a search would give back, or how long a run of
  `*` it prefers, has no part in whether an expression is found.  How large
  an expression may be is not bounded here.

  Main results:
    * `answers_row` — what the rows say about every ending of a name;
    * `spells_iff_runs` — the runs of a name;
    * `Regex.read_written` — what is written for a pattern is read back;
    * `accepts_iff_runs` — matching, the runs and the expression are one.
-/
import Homestead.House.Wildcard
import Mathlib.Data.List.Forall2
import Mathlib.Tactic.SplitIfs

namespace Homestead

namespace Wildcard

/-! ## §1. The runs of a name. -/

/-- The runs that a character of a pattern contributes to a name. -/
def Contributes (c : Char) (run : List Char) : Prop :=
  if c = '*' then '\n' ∉ run
  else if c = '?' then run.length ≤ 1 ∧ '\n' ∉ run
  else run = [c]

/-- A text is a run of a character with something behind it that has a property. -/
def Extends (c : Char) (P : List Char → Prop) (s : List Char) : Prop :=
  ∃ run rest, s = run ++ rest ∧ Contributes c run ∧ P rest

/-- A pattern spells a name: the name is made of the runs of its characters, in order. -/
def Spells : List Char → List Char → Prop
  | [], name => name = []
  | c :: pattern, name => Extends c (Spells pattern) name

variable {c x : Char} {P Q : List Char → Prop} {s : List Char} {pattern name : List Char}

/-- A star contributes any run without a line feed. -/
theorem contributes_star {run : List Char} : Contributes '*' run ↔ '\n' ∉ run :=
  Iff.of_eq (if_pos rfl)

/-- A question mark contributes at most one character, and no line feed. -/
theorem contributes_question {run : List Char} :
    Contributes '?' run ↔ run = [] ∨ ∃ x, x ≠ '\n' ∧ run = [x] := by
  rw [Contributes, if_neg (by decide), if_pos rfl]
  match run with
  | [] => simp
  | [x] => simp [eq_comm]
  | x :: y :: run => simp

/-- Any other character contributes itself. -/
theorem contributes_literal (hStar : c ≠ '*') (hQuestion : c ≠ '?') {run : List Char} :
    Contributes c run ↔ run = [c] := by
  rw [Contributes, if_neg hStar, if_neg hQuestion]

/-- **A name is spelled by a pattern** if it can be cut into one run for each character. -/
theorem spells_iff_runs :
    Spells pattern name ↔ ∃ runs, List.Forall₂ Contributes pattern runs ∧ runs.flatten = name := by
  -- By induction on the pattern, one run for each character.
  induction pattern generalizing name with
  | nil =>
    constructor
    · rintro rfl
      exact ⟨[], .nil, rfl⟩
    · rintro ⟨runs, hRuns, rfl⟩
      cases hRuns
      rfl
  | cons c pattern ih =>
    constructor
    · rintro ⟨run, rest, rfl, hRun, hRest⟩
      obtain ⟨runs, hRuns, rfl⟩ := ih.1 hRest
      exact ⟨run :: runs, .cons hRun hRuns, rfl⟩
    · rintro ⟨runs, hRuns, rfl⟩
      cases hRuns with
      | cons hRun hRuns => exact ⟨_, _, List.flatten_cons, hRun, ih.2 ⟨_, hRuns, rfl⟩⟩

/-- The characters of a pattern that stand for themselves. -/
def literals (pattern : List Char) : List Char :=
  pattern.filter fun c => c != '*' && c != '?'

/-- **Every pattern spells a name**, as `*` and `?` need not give any characters. -/
theorem spells_literals (pattern : List Char) : Spells pattern (literals pattern) := by
  induction pattern with
  | nil => rfl
  | cons c pattern ih =>
    by_cases hStar : c = '*'
    · subst hStar
      exact ⟨[], _, rfl, contributes_star.2 List.not_mem_nil, ih⟩
    · by_cases hQuestion : c = '?'
      · subst hQuestion
        exact ⟨[], _, rfl, contributes_question.2 (.inl rfl), ih⟩
      · -- Any other character stands for itself.
        have hLiteral : literals (c :: pattern) = c :: literals pattern := by
          refine List.filter_cons_of_pos ?_
          rw [Bool.and_eq_true, bne_iff_ne, bne_iff_ne]
          exact ⟨hStar, hQuestion⟩
        rw [hLiteral]
        exact ⟨[c], _, rfl, (contributes_literal hStar hQuestion).2 rfl, ih⟩

/-! ## §2. One more character. -/

/-- At the end of a name a star contributes nothing. -/
theorem extends_star_nil : Extends '*' P [] ↔ P [] := by
  constructor
  · rintro ⟨run, rest, hSplit, -, hRest⟩
    obtain ⟨-, rfl⟩ := List.append_eq_nil_iff.1 hSplit.symm
    exact hRest
  · exact fun h => ⟨[], [], rfl, contributes_star.2 List.not_mem_nil, h⟩

/-- A run ends at once, or has one more character. -/
theorem extends_star_cons :
    Extends '*' P (x :: s) ↔ P (x :: s) ∨ x ≠ '\n' ∧ Extends '*' P s := by
  constructor
  · rintro ⟨run, rest, hSplit, hRun, hRest⟩
    -- The run is empty, or its first character is the first one here.
    cases run with
    | nil => exact .inl (hSplit ▸ hRest)
    | cons y run =>
      obtain ⟨rfl, rfl⟩ := List.cons.inj hSplit
      rw [contributes_star, List.mem_cons, not_or] at hRun
      exact .inr ⟨Ne.symm hRun.1, run, rest, rfl, contributes_star.2 hRun.2, hRest⟩
  · rintro (hRest | ⟨hLine, run, rest, rfl, hRun, hRest⟩)
    · exact ⟨[], x :: s, rfl, contributes_star.2 List.not_mem_nil, hRest⟩
    · refine ⟨x :: run, rest, rfl, contributes_star.2 ?_, hRest⟩
      rw [List.mem_cons, not_or]
      exact ⟨Ne.symm hLine, contributes_star.1 hRun⟩

/-- At the end of a name a question mark contributes nothing. -/
theorem extends_question_nil : Extends '?' P [] ↔ P [] := by
  constructor
  · rintro ⟨run, rest, hSplit, -, hRest⟩
    obtain ⟨-, rfl⟩ := List.append_eq_nil_iff.1 hSplit.symm
    exact hRest
  · exact fun h => ⟨[], [], rfl, contributes_question.2 (.inl rfl), h⟩

/-- A question mark takes the next character or leaves it. -/
theorem extends_question_cons :
    Extends '?' P (x :: s) ↔ P (x :: s) ∨ x ≠ '\n' ∧ P s := by
  constructor
  · rintro ⟨run, rest, hSplit, hRun, hRest⟩
    obtain rfl | ⟨y, hLine, rfl⟩ := contributes_question.1 hRun
    · exact .inl (hSplit ▸ hRest)
    · obtain ⟨rfl, rfl⟩ := List.cons.inj hSplit
      exact .inr ⟨hLine, hRest⟩
  · rintro (hRest | ⟨hLine, hRest⟩)
    · exact ⟨[], x :: s, rfl, contributes_question.2 (.inl rfl), hRest⟩
    · exact ⟨[x], s, rfl, contributes_question.2 (.inr ⟨x, hLine, rfl⟩), hRest⟩

/-- Any other character takes its equal. -/
theorem extends_literal (hStar : c ≠ '*') (hQuestion : c ≠ '?') :
    Extends c P s ↔ ∃ rest, s = c :: rest ∧ P rest := by
  constructor
  · rintro ⟨run, rest, rfl, hRun, hRest⟩
    rw [contributes_literal hStar hQuestion] at hRun
    exact ⟨rest, by rw [hRun, List.singleton_append], hRest⟩
  · rintro ⟨rest, rfl, hRest⟩
    exact ⟨[c], rest, rfl, (contributes_literal hStar hQuestion).2 rfl, hRest⟩

/-! ## §3. Rows of answers. -/

/-- A row has the answers whether a property holds, for every ending of a name, the name first. -/
inductive Answers (P : List Char → Prop) : List Char → List Bool → Prop where
  /-- The empty ending. -/
  | nil {b : Bool} (h : b = true ↔ P []) : Answers P [] [b]
  /-- A name and its endings. -/
  | cons {x : Char} {name : List Char} {b : Bool} {row : List Bool} (h : b = true ↔ P (x :: name))
    (hRest : Answers P name row) : Answers P (x :: name) (b :: row)

/-- The first answer of a row is the answer for the whole name. -/
theorem Answers.whole_iff {row : List Bool} (h : Answers P name row) :
    whole row = true ↔ P name := by
  cases h with
  | nil h => exact h
  | cons h _ => exact h

/-- The empty pattern is answered by the end of the name alone. -/
theorem answers_emptyRow (name : List Char) : Answers (· = []) name (emptyRow name) := by
  induction name with
  | nil => exact .nil (iff_of_true rfl rfl)
  | cons x name ih => exact .cons (iff_of_false Bool.false_ne_true (List.cons_ne_nil x name)) ih

/-- **One more character in front of a pattern**: its row is found from the one without it. -/
theorem Answers.prepend {row : List Bool} (h : Answers P name row) (c : Char) :
    Answers (Extends c P) name (prepend (ofChar c) name row) := by
  -- Each kind of character has its own equation, and in each the induction is on the name.
  by_cases hStar : c = '*'
  · subst hStar
    induction h with
    | nil h => exact .nil (h.trans extends_star_nil.symm)
    | cons h hRest ih =>
      refine .cons ?_ ih
      -- A star that takes one more character may take others: the row it builds is asked.
      have hLater := ih.whole_iff
      show (_ || (_ && _)) = true ↔ _
      rw [extends_star_cons, Bool.or_eq_true, Bool.and_eq_true, bne_iff_ne]
      exact or_congr h (and_congr_right' hLater)
  · by_cases hQuestion : c = '?'
    · subst hQuestion
      induction h with
      | nil h => exact .nil (h.trans extends_question_nil.symm)
      | cons h hRest ih =>
        refine .cons ?_ ih
        show (_ || (_ && _)) = true ↔ _
        rw [extends_question_cons, Bool.or_eq_true, Bool.and_eq_true, bne_iff_ne]
        exact or_congr h (and_congr_right' hRest.whole_iff)
    · have hLiteral : ofChar c = literal c := by rw [ofChar, if_neg hStar, if_neg hQuestion]
      rw [hLiteral]
      induction h with
      | nil h =>
        refine .nil (iff_of_false Bool.false_ne_true ?_)
        rw [extends_literal hStar hQuestion]
        rintro ⟨rest, hSplit, -⟩
        cases hSplit
      | cons h hRest ih =>
        refine .cons ?_ ih
        show (_ && _) = true ↔ _
        rw [extends_literal hStar hQuestion, Bool.and_eq_true, beq_iff_eq]
        refine (and_congr_right' hRest.whole_iff).trans ?_
        constructor
        · rintro ⟨rfl, hP⟩
          exact ⟨_, rfl, hP⟩
        · rintro ⟨rest, hSplit, hP⟩
          obtain ⟨rfl, rfl⟩ := List.cons.inj hSplit
          exact ⟨rfl, hP⟩

/-- **The row of a pattern** says which endings of a name the pattern spells. -/
theorem answers_row (pattern name : List Char) :
    Answers (Spells pattern) name (row name (ofText pattern)) := by
  induction pattern with
  | nil => exact answers_emptyRow name
  | cons c pattern ih => exact ih.prepend c

/-- **Matching is spelling.** -/
theorem accepts_iff_spells : accepts (ofText pattern) name = true ↔ Spells pattern name :=
  (answers_row pattern name).whole_iff

end Wildcard

/-! ## §4. Regular expressions. -/

/-- A regular expression. -/
inductive Regex where
  /-- Nothing. -/
  | empty
  /-- The place in front of the text. -/
  | start
  /-- The place behind the text. -/
  | stop
  /-- Any character but a line feed. -/
  | dot
  /-- A character. -/
  | char (c : Char)
  /-- Any number of times. -/
  | star (r : Regex)
  /-- At most once. -/
  | opt (r : Regex)
  /-- One behind the other. -/
  | seq (r s : Regex)
  deriving DecidableEq

namespace Regex

/-- The expression matches a piece of a text, with something before and after it. -/
inductive Matches : List Char → Regex → List Char → List Char → Prop where
  /-- The empty expression matches the empty piece. -/
  | empty {before after : List Char} : Matches before .empty [] after
  /-- There is nothing in front of the text. -/
  | start {after : List Char} : Matches [] .start [] after
  /-- There is nothing behind the text. -/
  | stop {before : List Char} : Matches before .stop [] []
  /-- A line goes on. -/
  | dot {before after : List Char} {c : Char} (h : c ≠ '\n') : Matches before .dot [c] after
  /-- The character stands there. -/
  | char {before after : List Char} {c : Char} : Matches before (.char c) [c] after
  /-- Not once. -/
  | starNil {before after : List Char} {r : Regex} : Matches before (.star r) [] after
  /-- Once and then again. -/
  | starCons {before p q after : List Char} {r : Regex} (h : Matches before r p (q ++ after))
    (hRest : Matches (before ++ p) (.star r) q after) : Matches before (.star r) (p ++ q) after
  /-- Not once. -/
  | optNil {before after : List Char} {r : Regex} : Matches before (.opt r) [] after
  /-- Once. -/
  | optOnce {before p after : List Char} {r : Regex} (h : Matches before r p after) :
    Matches before (.opt r) p after
  /-- One behind the other. -/
  | seq {before p q after : List Char} {r s : Regex} (h : Matches before r p (q ++ after))
    (hNext : Matches (before ++ p) s q after) : Matches before (.seq r s) (p ++ q) after

/-- The expression is found in a text. -/
def Finds (r : Regex) (text : List Char) : Prop :=
  ∃ before piece after, text = before ++ piece ++ after ∧ r.Matches before piece after

/-- Whether a character has a meaning of its own in expressions, at least in some places. -/
def isMeta (c : Char) : Bool :=
  ['\\', '.', '+', '*', '?', '(', ')', '|', '[', ']', '{', '}', '^', '$', '#', '&', '-', '~'].contains c

/-- What a character says that no backslash stands before, but for `*` and `?`. -/
def ofPlain? (c : Char) : Option Regex :=
  if c = '.' then some dot
  else if c = '^' then some start
  else if c = '$' then some stop
  else if isMeta c then none
  else some (char c)

/-- An expression in front of another one, if there is one. -/
def before? : Option Regex → Regex → Regex
  | none, s => s
  | some r, s => seq r s

/-- Reads an expression that needs no brackets, bars or counts; `last` is what the character before
says, to which `*` and `?` apply. -/
def read (last : Option Regex) : List Char → Option Regex
  | [] => some (before? last empty)
  | '*' :: text => last.bind fun r => (read none text).map (seq (star r))
  | '?' :: text => last.bind fun r => (read none text).map (seq (opt r))
  | '\\' :: c :: text =>
    if isMeta c then (read (some (char c)) text).map (before? last) else none
  | c :: text => (ofPlain? c).bind fun r => (read (some r) text).map (before? last)

/-! ## §5. Patterns as regular expressions. -/

/-- A character of a pattern as it is written in a regular expression. -/
def writtenChar (c : Char) : List Char :=
  if c = '*' then ['.', '*']
  else if c = '?' then ['.', '?']
  else if isMeta c then ['\\', c]
  else [c]

/-- A pattern as it is written as a regular expression. -/
def written (pattern : List Char) : List Char :=
  '^' :: pattern.flatMap writtenChar ++ ['$']

/-- What a character of a pattern says. -/
def ofPatternChar (c : Char) : Regex :=
  if c = '*' then star dot else if c = '?' then opt dot else char c

/-- What a pattern says, up to the end of the name. -/
def ofPattern : List Char → Regex
  | [] => seq stop empty
  | c :: pattern => seq (ofPatternChar c) (ofPattern pattern)

variable {before piece after pattern name : List Char} {c : Char} {r s : Regex}

/-- A character that has no meaning of its own says itself. -/
theorem read_of_not_isMeta (h : isMeta c = false) (last : Option Regex) (text : List Char) :
    read last (c :: text) = (read (some (char c)) text).map (before? last) := by
  have hNot : ∀ d, isMeta d = true → c ≠ d := fun d hd hc => by rw [hc, hd] at h; cases h
  have hPlain : ofPlain? c = some (char c) := by
    rw [ofPlain?, if_neg (hNot '.' rfl), if_neg (hNot '^' rfl), if_neg (hNot '$' rfl),
      if_neg (by rw [h]; decide)]
  rw [read, hPlain, Option.bind_some]
  · exact hNot '*' rfl
  · exact hNot '?' rfl
  · exact fun _ _ hc _ => hNot '\\' rfl hc

/-- **What is written for a pattern is read back.** -/
theorem read_writtenTail (last : Option Regex) (pattern : List Char) :
    read last (pattern.flatMap writtenChar ++ ['$']) = some (before? last (ofPattern pattern)) := by
  induction pattern generalizing last with
  | nil => rfl
  | cons c pattern ih =>
    rw [List.flatMap_cons, List.append_assoc, writtenChar, ofPattern, ofPatternChar]
    by_cases hStar : c = '*'
    · rw [if_pos hStar, if_pos hStar]
      show ((read none (pattern.flatMap writtenChar ++ ['$'])).map _).map _ = _
      rw [ih]
      rfl
    · by_cases hQuestion : c = '?'
      · rw [if_neg hStar, if_pos hQuestion, if_neg hStar, if_pos hQuestion]
        show ((read none (pattern.flatMap writtenChar ++ ['$'])).map _).map _ = _
        rw [ih]
        rfl
      · rw [if_neg hStar, if_neg hQuestion, if_neg hStar, if_neg hQuestion]
        -- What has a meaning in an expression is written with a backslash, and the reader takes
        -- that off.
        by_cases hMeta : isMeta c = true
        · rw [if_pos hMeta]
          show (if isMeta c then (read (some (char c)) (pattern.flatMap writtenChar ++ ['$'])).map _
            else none) = _
          rw [if_pos hMeta, ih]
          rfl
        · rw [if_neg hMeta, List.singleton_append,
            read_of_not_isMeta (Bool.eq_false_iff.2 hMeta), ih]
          rfl

/-- The text that is written for a pattern is read as the expression of that pattern. -/
theorem read_written (pattern : List Char) :
    read none (written pattern) = some (seq start (ofPattern pattern)) := by
  show (read (some start) (pattern.flatMap writtenChar ++ ['$'])).map _ = _
  rw [read_writtenTail]
  rfl

/-! ## §6. What the expressions match. -/

/-- The empty expression matches the empty piece. -/
theorem matches_empty_iff : empty.Matches before piece after ↔ piece = [] :=
  ⟨fun h => by cases h; rfl, by rintro rfl; exact .empty⟩

/-- The start matches where nothing stands before. -/
theorem matches_start_iff : start.Matches before piece after ↔ before = [] ∧ piece = [] :=
  ⟨fun h => by cases h; exact ⟨rfl, rfl⟩, by rintro ⟨rfl, rfl⟩; exact .start⟩

/-- The end matches where nothing stands behind. -/
theorem matches_stop_iff : stop.Matches before piece after ↔ piece = [] ∧ after = [] :=
  ⟨fun h => by cases h; exact ⟨rfl, rfl⟩, by rintro ⟨rfl, rfl⟩; exact .stop⟩

/-- A sequence matches a piece that splits into one for each of its parts. -/
theorem matches_seq_iff : (seq r s).Matches before piece after
    ↔ ∃ p q, piece = p ++ q ∧ r.Matches before p (q ++ after) ∧ s.Matches (before ++ p) q after := by
  constructor
  · intro h
    cases h with
    | seq h hNext => exact ⟨_, _, rfl, h, hNext⟩
  · rintro ⟨p, q, rfl, h, hNext⟩
    exact .seq h hNext

/-- A dot with a star matches what has no line feed. -/
theorem matches_star_dot_iff : (star dot).Matches before piece after ↔ '\n' ∉ piece := by
  constructor
  · intro h
    generalize hr : star dot = r at h
    -- By induction on the turns of the star, each of which takes one character.
    induction h with
    | starNil => exact List.not_mem_nil
    | starCons h hRest _ ih =>
      obtain rfl := Regex.star.inj hr
      cases h with
      | dot hLine =>
        rw [List.singleton_append, List.mem_cons, not_or]
        exact ⟨Ne.symm hLine, ih rfl⟩
    | _ => cases hr
  · intro h
    induction piece generalizing before with
    | nil => exact .starNil
    | cons x piece ih =>
      rw [List.mem_cons, not_or] at h
      exact .starCons (p := [x]) (.dot (Ne.symm h.1)) (ih h.2)

/-- A dot with a question mark matches at most one character, and no line feed. -/
theorem matches_opt_dot_iff :
    (opt dot).Matches before piece after ↔ piece = [] ∨ ∃ x, x ≠ '\n' ∧ piece = [x] := by
  constructor
  · intro h
    cases h with
    | optNil => exact .inl rfl
    | optOnce h =>
      cases h with
      | dot hLine => exact .inr ⟨_, hLine, rfl⟩
  · rintro (rfl | ⟨x, hLine, rfl⟩)
    · exact .optNil
    · exact .optOnce (.dot hLine)

/-- A character matches itself. -/
theorem matches_char_iff : (char c).Matches before piece after ↔ piece = [c] := by
  constructor
  · intro h
    cases h
    rfl
  · rintro rfl
    exact .char

/-- **A character says what it contributes.** -/
theorem matches_ofPatternChar_iff :
    (ofPatternChar c).Matches before piece after ↔ Wildcard.Contributes c piece := by
  unfold ofPatternChar
  by_cases hStar : c = '*'
  · rw [if_pos hStar, hStar, matches_star_dot_iff, Wildcard.contributes_star]
  · by_cases hQuestion : c = '?'
    · rw [if_neg hStar, if_pos hQuestion, hQuestion, matches_opt_dot_iff,
        Wildcard.contributes_question]
    · rw [if_neg hStar, if_neg hQuestion, matches_char_iff,
        Wildcard.contributes_literal hStar hQuestion]

/-- What a pattern says matches what it spells, at the end of a text. -/
theorem matches_ofPattern_iff :
    (ofPattern pattern).Matches before piece after ↔ Wildcard.Spells pattern piece ∧ after = [] := by
  induction pattern generalizing before piece with
  | nil =>
    rw [ofPattern, matches_seq_iff]
    constructor
    · rintro ⟨p, q, rfl, hStop, hEmpty⟩
      obtain rfl := matches_empty_iff.1 hEmpty
      obtain ⟨rfl, hEnd⟩ := matches_stop_iff.1 hStop
      exact ⟨rfl, hEnd⟩
    · rintro ⟨rfl, rfl⟩
      exact ⟨[], [], rfl, .stop, .empty⟩
  | cons c pattern ih =>
    rw [ofPattern, matches_seq_iff]
    constructor
    · -- The first character spells a run, and the others what is left.
      rintro ⟨run, rest, rfl, hRun, hRest⟩
      obtain ⟨hSpells, hEnd⟩ := ih.1 hRest
      exact ⟨⟨run, rest, rfl, matches_ofPatternChar_iff.1 hRun, hSpells⟩, hEnd⟩
    · rintro ⟨⟨run, rest, rfl, hRun, hRest⟩, hEnd⟩
      exact ⟨run, rest, rfl, matches_ofPatternChar_iff.2 hRun, ih.2 ⟨hRest, hEnd⟩⟩

/-- **The expression of a pattern is found** in the names that the pattern spells. -/
theorem finds_ofPattern_iff :
    (seq start (ofPattern pattern)).Finds name ↔ Wildcard.Spells pattern name := by
  constructor
  · rintro ⟨before, piece, after, rfl, hMatches⟩
    obtain ⟨p, q, rfl, hStart, hRest⟩ := matches_seq_iff.1 hMatches
    obtain ⟨rfl, rfl⟩ := matches_start_iff.1 hStart
    obtain ⟨hSpells, rfl⟩ := matches_ofPattern_iff.1 hRest
    simpa using hSpells
  · intro h
    exact ⟨[], name, [], by simp, matches_seq_iff.2
      ⟨[], name, rfl, .start, matches_ofPattern_iff.2 ⟨h, rfl⟩⟩⟩

end Regex

namespace Wildcard

/-- **What a pattern stands for**: it matches the names that are made of one run for each of its
characters, in order, where `*` gives any run of one line, `?` at most one character of a line, and
every other character itself.  It is written as an anchored regular expression in which all other
characters stand for themselves, and which is found in the same names. -/
theorem accepts_iff_runs (pattern name : List Char) :
    (accepts (ofText pattern) name = true
        ↔ ∃ runs, List.Forall₂ Contributes pattern runs ∧ runs.flatten = name)
      ∧ ∃ r, Regex.read none (Regex.written pattern) = some r
        ∧ (r.Finds name ↔ accepts (ofText pattern) name = true) := by
  refine ⟨accepts_iff_spells.trans spells_iff_runs, _, Regex.read_written pattern, ?_⟩
  exact Regex.finds_ofPattern_iff.trans accepts_iff_spells.symm

/-- Stars and optional characters meet, and a dot is only a dot. -/
example : accepts (ofText "a.*?b?".toList) "a.xyb".toList = true
    ∧ accepts (ofText "a.*?b?".toList) "axyb".toList = false
    ∧ Regex.written "a.*?".toList = "^a\\..*.?$".toList := by
  decide

end Wildcard

end Homestead
