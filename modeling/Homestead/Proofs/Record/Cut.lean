/-
  Homestead.Proofs.Record.Cut
  ───────────────────────────
  **EVERY CUT IS NOTICED.**

  A record that is cut short does not pass for another record.  Wherever
  the cut goes, through a number, a text, the fields or a record inside,
  reading runs out of octets: at a read that begins no further on than the
  cut, and without having met anything else that is wrong.

  The argument compares two readings of one beginning.  As long as a read
  lies in front of the cut, it gives what it gave before the cut was made
  (`Local`), so the next read is the same one; the first read that the cut
  goes through is the one that fails.

  Main results:
    * `eq_none_of_cut` — a read fails when its octets are cut short;
    * `noticesCuts_bind` — a cut through the first step or the second;
    * `decode_cut` — a record is read from its own octets, and from no
      fewer of them.
-/
import Homestead.Proofs.Record.Aligned

open Homestead.Stream

namespace Homestead

/-! ## §1. Reads. -/

/-- Nothing stands between a front and a rest that is all there is. -/
theorem eq_nil_of_cut {α : Type} {front tail rest : List α} (h : rest = front ++ tail ++ rest) :
    tail = [] := by
  have hLength := congrArg List.length h
  simp only [List.length_append] at hLength
  exact List.length_eq_zero_iff.1 (by omega)

/-- **A read fails when its octets are cut short.**  If it did not, it would also give up early
where nothing is cut. -/
theorem Stream.Reader.eq_none_of_cut {α : Type} {read : Reader → Option (α × Reader)}
    (h : Local read) {r r' : Reader} {a : α} (hRead : read r = some (a, r'))
    {front tail : List UInt8} (hCut : r.rest = front ++ tail ++ r'.rest) (hTail : tail ≠ []) :
    read ⟨r.position, front⟩ = none := by
  cases hEarly : read ⟨r.position, front⟩ with
  | none => rfl
  | some result =>
    exfalso
    obtain ⟨b, r''⟩ := result
    obtain ⟨used, hPasses, hAgain⟩ := h _ b r'' hEarly
    have hFront : front = used ++ r''.rest := hPasses.rest_eq
    -- With the octets behind the early end back in their place, the read ends there as well.
    have hLonger : read r = some (b, ⟨r''.position, r''.rest ++ tail ++ r'.rest⟩) := by
      have hOctets : r = ⟨r.position, used ++ (r''.rest ++ tail ++ r'.rest)⟩ := by
        obtain ⟨position, rest⟩ := r
        simp only [Reader.mk.injEq, true_and]
        rw [show rest = front ++ tail ++ r'.rest from hCut, hFront]
        simp only [List.append_assoc]
      rw [hOctets]
      exact hAgain _
    have hRest : r'.rest = r''.rest ++ tail ++ r'.rest := by
      rw [hRead] at hLonger
      exact congrArg (fun p => p.2.rest) (Option.some_inj.1 hLonger)
    exact hTail (eq_nil_of_cut hRest)

namespace Record

variable {α β : Type}

/-! ## §2. Steps. -/

/-- The step runs out of octets, at a read that begins among those that there are. -/
def RunsOut (step : Step α) (r : Reader) : Prop :=
  ∃ k ≤ r.rest.length, step r = .error ⟨.truncated (r.position + k), r.position + k⟩

/-- Where the step has gone through, it runs out of octets when those that it passed are cut
short. -/
def NoticesCuts (step : Step α) (r : Reader) : Prop :=
  ∀ a r', step r = .ok (a, r') → ∀ front tail, r.rest = front ++ tail ++ r'.rest → tail ≠ [] →
    RunsOut step ⟨r.position, front⟩

/-- A value that is given outright needs no octets, so no cut concerns it. -/
theorem noticesCuts_pure (a : α) (r : Reader) : NoticesCuts (fun r => .ok (a, r)) r := by
  intro b r' h front tail hCut hTail
  obtain ⟨rfl, rfl⟩ := Prod.mk.inj (Except.ok.inj h)
  exact absurd (eq_nil_of_cut hCut) hTail

/-- A step that fails anyway is no success to be cut. -/
theorem noticesCuts_throw (failure : Reader → Failure) (r : Reader) :
    NoticesCuts (α := α) (fun r => .error (failure r)) r := by
  intro a r' h
  cases h

/-- A local reading notices every cut of what it read. -/
theorem noticesCuts_value {read : Reader → Option (α × Reader)} (h : Reader.Local read)
    (r : Reader) : NoticesCuts (value read) r := by
  intro a r' hValue front tail hCut hTail
  have hNone := Reader.eq_none_of_cut h (value_eq_ok.1 hValue) hCut hTail
  refine ⟨0, Nat.zero_le _, ?_⟩
  unfold value
  rw [hNone]
  rfl

/-- A step that runs out runs out with whatever was to follow it. -/
theorem RunsOut.bind {x : Step α} {r : Reader} (h : RunsOut x r) (f : Nat → α → Step β) :
    RunsOut (fun r => x r >>= fun p => f r.position p.1 p.2) r := by
  obtain ⟨k, hBound, hError⟩ := h
  refine ⟨k, hBound, ?_⟩
  dsimp only
  rw [hError]
  rfl

/-- **A cut through two steps goes through the first or through the second.** -/
theorem noticesCuts_bind {x : Step α} {f : Nat → α → Step β} {r : Reader} (hLocal : Local x)
    (hx : NoticesCuts x r)
    (hf : ∀ a r₁, x r = .ok (a, r₁) → NoticesCuts (f r.position a) r₁) :
    NoticesCuts (fun r => x r >>= fun p => f r.position p.1 p.2) r := by
  intro b r' h front tail hCut hTail
  obtain ⟨⟨a, r₁⟩, hFirst, hSecond⟩ := bind_eq_ok.1 h
  obtain ⟨used, hPasses, hAgain⟩ := hLocal r a r₁ hFirst
  have hSame : front ++ (tail ++ r'.rest) = used ++ r₁.rest := by
    rw [← hPasses.rest_eq, hCut, List.append_assoc]
  rcases le_or_gt used.length front.length with hBehind | hWithin
  · -- The first step lies in front of the cut, so it goes through as before.
    obtain ⟨piece, rfl⟩ := List.prefix_of_prefix_length_le ⟨_, hSame.symm⟩ ⟨_, rfl⟩ hBehind
    have hPiece : r₁.rest = piece ++ tail ++ r'.rest := by
      rw [List.append_assoc] at hSame ⊢
      exact (List.append_cancel_left hSame).symm
    obtain ⟨k, hBound, hError⟩ := hf a r₁ hFirst b r' hSecond piece tail hPiece hTail
    have hBound' : k ≤ piece.length := hBound
    refine ⟨used.length + k, ?_, ?_⟩
    · simp only [List.length_append]
      omega
    · dsimp only
      rw [hAgain piece, ← Nat.add_assoc, ← hPasses.position_eq]
      exact hError
  · -- The cut goes through the first step.
    obtain ⟨back, rfl⟩ := List.prefix_of_prefix_length_le ⟨_, hSame⟩ ⟨_, rfl⟩ hWithin.le
    have hBack : back ≠ [] := by
      rintro rfl
      simp at hWithin
    exact (hx a r₁ hFirst front back hPasses.rest_eq hBack).bind f

/-! ## §3. Fields. -/

/-- Reading the data of a field notices every cut. -/
theorem noticesCuts_readData (fs : List Format) (r : Reader) : NoticesCuts (readData fs) r := by
  induction fs generalizing r with
  | nil => exact noticesCuts_pure [] r
  | cons f fs ih =>
    have hLocal := local_value (Reader.local_datum f)
    refine noticesCuts_bind (f := fun _ d r => readData fs r >>= fun p => .ok (d :: p.1, p.2))
      hLocal (noticesCuts_value (Reader.local_datum f) r) ?_
    intro d r₁ _
    exact noticesCuts_bind (f := fun _ ds r => .ok (d :: ds, r)) (local_readData fs) (ih r₁)
      fun ds r₂ _ => noticesCuts_pure (d :: ds) r₂

/-- Reading a mark notices every cut. -/
theorem noticesCuts_readMark (r : Reader) : NoticesCuts readMark r := by
  refine noticesCuts_bind (f := readAfterCode) (local_value Reader.local_u8)
    (noticesCuts_value Reader.local_u8 r) ?_
  intro code r₁ _
  -- Of what follows the code only the data of a field passes further octets.
  unfold readAfterCode
  split_ifs
  · exact noticesCuts_pure _ r₁
  · exact noticesCuts_pure _ r₁
  · cases Tag.ofCode? code with
    | none => exact noticesCuts_throw (fun r' => ⟨.unknownTag code r.position, r'.position⟩) r₁
    | some tag =>
      exact noticesCuts_bind (f := fun _ payload r => Except.ok (Mark.field ⟨tag, payload⟩, r))
        (local_readData tag.formats) (noticesCuts_readData tag.formats r₁)
        fun payload r₂ _ => noticesCuts_pure (Mark.field ⟨tag, payload⟩) r₂

/-- What follows a mark: nothing behind the last one, and more fields behind a field. -/
def readAfterMark : Mark → Step (List Field × Closing)
  | .close closing => fun r => .ok (([], closing), r)
  | .field f => fun r => readFields r >>= fun p => .ok ((f :: p.1.1, p.1.2), p.2)

/-- Fields are a mark, and what comes after it. -/
theorem readFields_eq (r : Reader) :
    readFields r = readMark r >>= fun p => readAfterMark p.1 p.2 := by
  rw [readFields]
  split
  next e h =>
    rw [h]
    rfl
  next closing r' h =>
    rw [h]
    rfl
  -- Behind a field come the others.
  next f r' h =>
    rw [h]
    show _ = readFields r' >>= _
    cases readFields r' with
    | error e => rfl
    | ok result => rfl

/-- Reading the fields of a record notices every cut, by induction over what is left. -/
theorem noticesCuts_readFields (r : Reader) : NoticesCuts readFields r := by
  -- The fields that are left take fewer octets.
  induction hLength : r.rest.length using Nat.strong_induction_on generalizing r with
  | h length ih =>
    rw [funext readFields_eq]
    refine noticesCuts_bind (f := fun _ => readAfterMark) local_readMark
      (noticesCuts_readMark r) ?_
    intro mark r₁ hMark
    cases mark with
    | close closing => exact noticesCuts_pure ([], closing) r₁
    | field f =>
      have hShorter := readMark_length_lt hMark
      exact noticesCuts_bind (f := fun _ q r => Except.ok ((f :: q.1, q.2), r)) local_readFields
        (ih r₁.rest.length (by omega) r₁ rfl) fun q r₂ _ => noticesCuts_pure (f :: q.1, q.2) r₂

/-! ## §4. Records. -/

/-- A step that is repeated notices every cut if the step does. -/
theorem noticesCuts_times {step : Step α} (hLocal : Local step) (h : ∀ r, NoticesCuts step r)
    (n : Nat) (r : Reader) : NoticesCuts (times step n) r := by
  induction n generalizing r with
  | zero => exact noticesCuts_pure [] r
  | succ n ih =>
    refine noticesCuts_bind (f := fun _ a r => times step n r >>= fun p => .ok (a :: p.1, p.2))
      hLocal (h r) ?_
    intro a r₁ _
    exact noticesCuts_bind (f := fun _ as r => .ok (a :: as, r)) (local_times hLocal n) (ih r₁)
      fun as r₂ _ => noticesCuts_pure (a :: as) r₂

/-- Reading contents notices every cut, in the count or in one of the records. -/
theorem noticesCuts_readContents (typeId : TypeId) {step : Step Record} (hLocal : Local step)
    (h : ∀ r, NoticesCuts step r) (r : Reader) : NoticesCuts (readContents typeId step) r := by
  refine noticesCuts_bind (f := fun _ => readCounted typeId step) (local_value Reader.local_u32)
    (noticesCuts_value Reader.local_u32 r) ?_
  intro count r₁ _
  refine noticesCuts_bind (f := fun _ => readEnd typeId) (local_times hLocal count.toNat)
    (noticesCuts_times hLocal h count.toNat r₁) ?_
  -- The octet that ends the contents can be cut off, too.
  intro children r₂ _
  refine noticesCuts_bind (f := endWith typeId children) (local_value Reader.local_u8)
    (noticesCuts_value Reader.local_u8 r₂) ?_
  intro code r₃ _
  unfold endWith
  split_ifs
  · exact noticesCuts_pure children r₃
  · exact noticesCuts_throw (fun r => ⟨.mismatch typeId (.noEnd r₂.position code), r.position⟩) r₃

/-- **A cut behind the fields is noticed** if a cut through the contents is. -/
theorem noticesCuts_closeWith (c : Catalog) {below : Option (Step Record)} (typeId : TypeId)
    (fields : List Field × Closing) (hLocal : ∀ step ∈ below, Local step)
    (h : ∀ step ∈ below, ∀ r, NoticesCuts step r) (r : Reader) :
    NoticesCuts (closeWith c below typeId fields) r := by
  obtain ⟨fields, closing⟩ := fields
  cases closing with
  | finish => exact noticesCuts_pure _ r
  | contents =>
    unfold closeWith
    dsimp only
    -- Contents that are refused for their type, or for their depth, fail with and without a cut.
    split_ifs
    · exact noticesCuts_throw (fun r => ⟨.mismatch typeId .contentsRefused, r.position⟩) r
    · cases below with
      | none => exact noticesCuts_throw (fun r => ⟨.mismatch typeId .tooDeep, r.position⟩) r
      | some step =>
        exact noticesCuts_bind
          (f := fun _ children r => Except.ok (Record.mk typeId _ _ (some children), r))
          (local_readContents typeId (hLocal step rfl))
          (noticesCuts_readContents typeId (hLocal step rfl) (h step rfl) r)
          fun children r₁ _ => noticesCuts_pure _ r₁

/-- One level of the decoder notices every cut if the level within does. -/
theorem noticesCuts_decodeWith (c : Catalog) {below : Option (Step Record)}
    (hLocal : ∀ step ∈ below, Local step) (h : ∀ step ∈ below, ∀ r, NoticesCuts step r)
    (r : Reader) : NoticesCuts (decodeWith c below) r := by
  refine noticesCuts_bind
    (f := fun _ typeId r => readFields r >>= fun q => closeWith c below typeId q.1 q.2)
    (local_value Reader.local_u16) (noticesCuts_value Reader.local_u16 r) ?_
  intro typeId r₁ _
  exact noticesCuts_bind (f := fun _ fields => closeWith c below typeId fields) local_readFields
    (noticesCuts_readFields r₁) fun fields r₂ _ =>
      noticesCuts_closeWith c typeId fields hLocal h r₂

/-- The decoder notices every cut at every depth, by induction over the levels. -/
theorem noticesCuts_decodeWithin (c : Catalog) (levels : Nat) (r : Reader) :
    NoticesCuts (decodeWithin c levels) r := by
  induction levels generalizing r with
  | zero =>
    -- At the deepest level no contents are read, and nothing is asked of a level below.
    rw [decodeWithin_zero]
    exact noticesCuts_decodeWith c (fun _ h => by cases h) (fun _ h => by cases h) r
  | succ levels ih =>
    rw [decodeWithin_succ]
    refine noticesCuts_decodeWith c ?_ ?_ r
    · -- Of the level below it has to be known that it looks at its own octets only.
      intro step hStep
      rw [← Option.some_inj.1 hStep]
      exact local_decodeWithin c levels
    · intro step hStep
      rw [← Option.some_inj.1 hStep]
      exact ih

/-! ## §5. Cutting records out, and short. -/

/-- **A record is read from its own octets, and from no fewer of them.**  With anything else behind
them it is the same record, up to the same octet.  With fewer of them the octets run out, and this
is said of a read that begins where the cursor has stopped, no further on than the cut. -/
theorem decode_cut {c : Catalog} {position : Nat} {octets : List UInt8} {rec : Record}
    {r' : Reader} (h : decode c ⟨position, octets⟩ = .ok (rec, r')) :
    ∃ n ≤ octets.length, r' = ⟨position + n, octets.drop n⟩
      ∧ (∀ rest, decode c ⟨position, octets.take n ++ rest⟩ = .ok (rec, ⟨position + n, rest⟩))
      ∧ ∀ m < n, ∃ k ≤ m, decode c ⟨position, octets.take m⟩
          = .error ⟨.truncated (position + k), position + k⟩ := by
  obtain ⟨used, hPasses, hAgain⟩ := local_decode c _ rec r' h
  have hOctets : octets = used ++ r'.rest := hPasses.rest_eq
  have hPosition : r'.position = position + used.length := hPasses.position_eq
  refine ⟨used.length, ?_, ?_, ?_, ?_⟩
  · rw [hOctets, List.length_append]
    omega
  · rw [hOctets, List.drop_left, ← hPosition]
  · rw [hOctets, List.take_left, ← hPosition]
    exact hAgain
  · intro m hShort
    -- What is cut off is the rest of the octets that were used, which is not empty.
    have hCut : octets = octets.take m ++ used.drop m ++ r'.rest := by
      rw [hOctets, List.take_append_of_le_length hShort.le, List.take_append_drop]
    have hTail : used.drop m ≠ [] := by
      rw [Ne, List.drop_eq_nil_iff]
      omega
    obtain ⟨k, hBound, hError⟩ :=
      noticesCuts_decodeWithin c maxDepth ⟨position, octets⟩ rec r' h _ _ hCut hTail
    exact ⟨k, hBound.trans (List.length_take_le m octets), hError⟩

/-- The door in the bag is read up to the octet behind the bag, and a cut anywhere before that one
is noticed. -/
theorem decode_cut_bag :
    ∃ rec, decode bagCatalog ⟨0, baggedDoor⟩ = .ok (rec, ⟨13, [7]⟩)
      ∧ ∃ n ≤ baggedDoor.length, (⟨13, [7]⟩ : Reader) = ⟨0 + n, baggedDoor.drop n⟩
        ∧ (∀ rest, decode bagCatalog ⟨0, baggedDoor.take n ++ rest⟩ = .ok (rec, ⟨0 + n, rest⟩))
        ∧ ∀ m < n, ∃ k ≤ m, decode bagCatalog ⟨0, baggedDoor.take m⟩
            = .error ⟨.truncated (0 + k), 0 + k⟩ := by
  have hRecord : IsRecord bagCatalog 0 [1, 0, 23, 1, 0, 0, 0, 2, 0, 14, 4, 0, 0] _ :=
    .holding 1 .nil (by decide) (by decide) (by decide)
      (.cons (.ended 2 (.cons (.doorId 4) .nil)) .nil)
  have hDecode := (reads_decodeWithin bagCatalog maxDepth rfl ⟨0, baggedDoor⟩ _ ⟨13, [7]⟩).2
    ⟨_, ⟨rfl, rfl⟩, hRecord⟩
  exact ⟨_, hDecode, decode_cut hDecode⟩

end Record

end Homestead
