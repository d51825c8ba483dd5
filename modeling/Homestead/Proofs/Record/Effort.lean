/-
  Homestead.Proofs.Record.Effort
  ──────────────────────────────
  **NO OCTETS MAKE MORE WORK THAN THEY ARE.**

  A record may say that it holds four thousand million others, and they may
  say so too.  That costs nothing: every turn of every loop begins with a
  read, a read that goes through passes octets, and reading stops at the
  first one that does not.

  To say how much is done, the steps are taken once more with a count of
  the reads that they try, failed ones included.  Without the count they
  are the same steps, so that the count is one of theirs.

  Main results:
    * `Metered`, `Metered.decode` — reading with a count;
    * `meters_andThen`, `meters_decodeWithin` — the count stays behind the
      cursor;
    * `IsRecord.three_mul_total_le`, `IsRecord.depth_add_le` — how many
      records so many octets are, and how deep they lie;
    * `decoding_bounded` — reading ends within its octets, and soon.
-/
import Homestead.Proofs.Record.Cut

open Homestead.Stream

namespace Homestead

namespace Record

variable {α β : Type}

/-! ## §1. Steps with a count of reads. -/

/-- A step that also tells how many reads it has tried. -/
abbrev Metered (α : Type) : Type := Reader → Except Failure (α × Reader) × Nat

namespace Metered

/-- A value that needs no read. -/
def give (a : α) : Metered α := fun r => (.ok (a, r), 0)

/-- A failure that needs no read. -/
def fail (failure : Reader → Failure) : Metered α := fun r => (.error (failure r), 0)

/-- One read. -/
def read (op : Reader → Option (α × Reader)) : Metered α := fun r => (value op r, 1)

/-- One step after another; the second may tell in a failure where the first one began. -/
def andThen (t : Metered α) (f : Nat → α → Metered β) : Metered β := fun r =>
  match t r with
  | (.error e, n) => (.error e, n)
  | (.ok (a, r'), n) => ((f r.position a r').1, n + (f r.position a r').2)

/-- Reads values of the given layouts. -/
def data : List Format → Metered (List Datum)
  | [] => give []
  | f :: fs =>
    (read (Reader.datum f)).andThen fun _ d => (data fs).andThen fun _ ds => give (d :: ds)

/-- Reads what follows the code of a mark that begins there. -/
def afterCode (start : Nat) (code : UInt8) : Metered Mark :=
  if code = endCode then give (.close .finish)
  else if code = contentsCode then give (.close .contents)
  else match Tag.ofCode? code with
    | none => fail fun r => ⟨.unknownTag code start, r.position⟩
    | some tag => (data tag.formats).andThen fun _ payload => give (.field ⟨tag, payload⟩)

/-- Reads a field, or the end of the fields. -/
def mark : Metered Mark :=
  (read Reader.u8).andThen afterCode

/-- Reads so many values with one step. -/
def times (t : Metered α) : Nat → Metered (List α)
  | 0 => give []
  | n + 1 => t.andThen fun _ a => (times t n).andThen fun _ as => give (a :: as)

/-- Reads the contents of a record behind octet 23, and the octet that ends the record. -/
def contents (typeId : TypeId) (t : Metered Record) : Metered (List Record) :=
  (read Reader.u32).andThen fun _ count =>
    (times t count.toNat).andThen fun _ children =>
      (read Reader.u8).andThen fun start code =>
        if code = endCode then give children
        else fail fun r => ⟨.mismatch typeId (.noEnd start code), r.position⟩

/-- Reads what comes behind the fields of a record, contents being read with the given step if they
may lie on a level below. -/
def closing (c : Catalog) (below : Option (Metered Record)) (typeId : TypeId)
    (fields : List Field × Closing) : Metered Record :=
  let type := c.usable? typeId
  let updates := fields.1.filterMap (Field.update? (type.map (·.variant)))
  match fields.2 with
  | .finish => give (.mk typeId type.isSome updates none)
  | .contents =>
    if !mayHold (type.map (·.variant)) then
      fail fun r => ⟨.mismatch typeId .contentsRefused, r.position⟩
    else match below with
      | none => fail fun r => ⟨.mismatch typeId .tooDeep, r.position⟩
      | some t => (contents typeId t).andThen fun _ children =>
        give (.mk typeId type.isSome updates (some children))

end Metered

/-! ## §2. The count stays behind the cursor. -/

/-- Without its count the one is the other.  Where the step goes through, it passes at least as
many octets as it tries reads; where it fails, the cursor stops within the octets that there are,
and there is one more read at most, the one that has failed. -/
structure Meters (t : Metered α) (step : Step α) (r : Reader) : Prop where
  /-- Without its count the one is the other. -/
  result : (t r).1 = step r
  /-- Reads that go through pass octets. -/
  passed : ∀ a r', step r = .ok (a, r') →
    ∃ used, Reader.Passes r r' used ∧ (t r).2 ≤ used.length
  /-- The cursor stops in front of the first one that does not. -/
  stopped : ∀ e, step r = .error e → r.position ≤ e.position
    ∧ e.position ≤ r.position + r.rest.length ∧ r.position + (t r).2 ≤ e.position + 1

/-- A value that is given outright takes no read. -/
theorem meters_give (a : α) (r : Reader) : Meters (Metered.give a) (fun r => .ok (a, r)) r where
  result := rfl
  passed b r' h := by
    obtain ⟨rfl, rfl⟩ := Prod.mk.inj (Except.ok.inj h)
    exact ⟨[], ⟨rfl, rfl⟩, Nat.le_refl 0⟩
  stopped e h := by cases h

/-- A failure that stands where the reader does takes no read. -/
theorem meters_fail (failure : Reader → Failure) (r : Reader)
    (h : (failure r).position = r.position) :
    Meters (α := α) (Metered.fail failure) (fun r => .error (failure r)) r where
  result := rfl
  passed a r' h := by cases h
  stopped e hError := by
    obtain rfl := Except.error.inj hError
    rw [h]
    exact ⟨Nat.le_refl _, Nat.le_add_right _ _, Nat.le_succ _⟩

/-- A read counts once, and passes an octet if it goes through. -/
theorem meters_read {op : Reader → Option (α × Reader)}
    (h : ∀ r a r', op r = some (a, r') → ∃ used, Reader.Passes r r' used ∧ 1 ≤ used.length)
    (r : Reader) : Meters (Metered.read op) (value op) r where
  result := rfl
  passed a r' hRead := h r a r' (value_eq_ok.1 hRead)
  stopped e hError := by
    unfold value at hError
    split at hError
    next => cases hError
    next =>
      obtain rfl := Except.error.inj hError
      exact ⟨Nat.le_refl _, Nat.le_add_right _ _, Nat.le_refl _⟩

/-- **One step after another**: what the first one has not passed, the second one finds. -/
theorem meters_andThen {t : Metered α} {x : Step α} {f : Nat → α → Metered β}
    {g : Nat → α → Step β} {r : Reader} (hx : Meters t x r)
    (hf : ∀ a r₁, x r = .ok (a, r₁) → Meters (f r.position a) (g r.position a) r₁) :
    Meters (t.andThen f) (fun r => x r >>= fun p => g r.position p.1 p.2) r := by
  cases hFirst : t r with
  | mk result n =>
    have hResult : x r = result := by rw [← hx.result, hFirst]
    have hPassed := hx.passed
    have hStopped := hx.stopped
    rw [hFirst, hResult] at hPassed hStopped
    -- Where the first step fails the second one is not taken, and takes no read.
    cases result with
    | error e =>
      have hBoth : (t.andThen f) r = (.error e, n) := by rw [Metered.andThen, hFirst]
      have hPlain : (x r >>= fun p => g r.position p.1 p.2) = .error e := by
        rw [hResult]
        rfl
      refine ⟨?_, ?_, ?_⟩
      · rw [hBoth]
        exact hPlain.symm
      · intro b r' h
        rw [hPlain] at h
        cases h
      · intro e' h
        rw [hPlain] at h
        obtain rfl := Except.error.inj h
        rw [hBoth]
        exact hStopped e rfl
    | ok first =>
      obtain ⟨a, r₁⟩ := first
      have hNext := hf a r₁ hResult
      obtain ⟨front, hFront, hCount⟩ := hPassed a r₁ rfl
      have hBoth : (t.andThen f) r
          = ((f r.position a r₁).1, n + (f r.position a r₁).2) := by rw [Metered.andThen, hFirst]
      have hPlain : (x r >>= fun p => g r.position p.1 p.2) = g r.position a r₁ := by
        rw [hResult]
        rfl
      refine ⟨?_, ?_, ?_⟩
      · rw [hBoth]
        exact hNext.result.trans hPlain.symm
      · intro b r' h
        rw [hPlain] at h
        obtain ⟨back, hBack, hMore⟩ := hNext.passed b r' h
        refine ⟨front ++ back, hFront.trans hBack, ?_⟩
        rw [hBoth, List.length_append]
        exact Nat.add_le_add hCount hMore
      · intro e h
        rw [hPlain] at h
        -- The cursor stops in the second step, behind what the first one has passed.
        obtain ⟨hBehind, hWithin, hMore⟩ := hNext.stopped e h
        have hPosition := hFront.position_eq
        have hLength := hFront.length_eq
        rw [hBoth]
        dsimp only at hCount ⊢
        omega

/-! ## §3. Values, fields, contents. -/

/-- A read of so many octets passes one at least. -/
theorem passes_of_size {op : Reader → Option (α × Reader)} {size : Nat} (hSize : 1 ≤ size)
    (hOp : ∀ {r r' : Reader} {a : α}, op r = some (a, r') →
      ∃ used, Reader.Passes r r' used ∧ used.length = size)
    (r : Reader) (a : α) (r' : Reader) (h : op r = some (a, r')) :
    ∃ used, Reader.Passes r r' used ∧ 1 ≤ used.length := by
  obtain ⟨used, hPasses, hLength⟩ := hOp h
  exact ⟨used, hPasses, by omega⟩

/-- Only octets as they are can be no octets at all. -/
theorem one_le_length_octets {d : Datum} (h : ∀ size, d.format ≠ .raw size) :
    1 ≤ d.octets.length := by
  cases d with
  | raw octets => exact absurd rfl (h octets.length)
  | _ => simp [Datum.octets, littleEndian_length] <;> omega

/-- Reading a datum of fixed format passes at least one octet. -/
theorem passes_of_datum {f : Format} (hf : ∀ size, f ≠ .raw size) (r : Reader) (d : Datum)
    (r' : Reader) (h : r.datum f = some (d, r')) :
    ∃ used, Reader.Passes r r' used ∧ 1 ≤ used.length := by
  obtain ⟨hPasses, rfl, _⟩ := Reader.passes_datum h
  exact ⟨d.octets, hPasses, one_le_length_octets hf⟩

/-- Each read for the data of a field passes an octet or is the last. -/
theorem meters_data {fs : List Format} (h : ∀ f ∈ fs, ∀ size, f ≠ .raw size) (r : Reader) :
    Meters (Metered.data fs) (readData fs) r := by
  induction fs generalizing r with
  | nil => exact meters_give [] r
  | cons f fs ih =>
    obtain ⟨hFirst, hRest⟩ := List.forall_mem_cons.1 h
    refine meters_andThen (g := fun _ d r => readData fs r >>= fun p => .ok (d :: p.1, p.2))
      (meters_read (passes_of_datum hFirst) r) ?_
    intro d r₁ _
    exact meters_andThen (g := fun _ ds r => .ok (d :: ds, r)) (ih hRest r₁)
      fun ds r₂ _ => meters_give (d :: ds) r₂

/-- No field has values without a length. -/
theorem ne_raw_of_mem_formats (t : Tag) : ∀ f ∈ t.formats, ∀ size, f ≠ .raw size := by
  cases t <;> simp [Tag.formats]

/-- Each read for a mark passes an octet or is the last. -/
theorem meters_mark (r : Reader) : Meters Metered.mark readMark r := by
  refine meters_andThen (g := readAfterCode)
    (meters_read (passes_of_size (by omega) Reader.u8_passes) r) ?_
  intro code r₁ _
  -- The code is one of the two marks, unknown, or a tag.
  unfold Metered.afterCode readAfterCode
  split_ifs
  · exact meters_give _ r₁
  · exact meters_give _ r₁
  · cases Tag.ofCode? code with
    | none =>
      exact meters_fail (fun r' => ⟨.unknownTag code r.position, r'.position⟩) r₁ rfl
    | some tag =>
      exact meters_andThen (g := fun _ payload r => Except.ok (Mark.field ⟨tag, payload⟩, r))
        (meters_data (ne_raw_of_mem_formats tag) r₁)
        fun payload r₂ _ => meters_give (Mark.field ⟨tag, payload⟩) r₂

namespace Metered

/-- Reads the fields up to their end. -/
def fields (r : Reader) : Except Failure ((List Field × Closing) × Reader) × Nat :=
  match _read : mark r with
  | (.error e, n) => (.error e, n)
  | (.ok (.close closing, r'), n) => (.ok (([], closing), r'), n)
  | (.ok (.field f, r'), n) =>
    match fields r' with
    | (.error e, m) => (.error e, n + m)
    | (.ok ((fs, closing), r''), m) => (.ok ((f :: fs, closing), r''), n + m)
termination_by r.rest.length
decreasing_by
  refine readMark_length_lt (m := .field f) ?_
  rw [← (meters_mark r).result, _read]

/-- What follows a mark: nothing behind the last one, and more fields behind a field. -/
def afterMark : Mark → Metered (List Field × Closing)
  | .close closing => give ([], closing)
  | .field f => andThen fields fun _ q => give (f :: q.1, q.2)

/-- Fields are a mark, and what comes after it. -/
theorem fields_eq : fields = mark.andThen fun _ => afterMark := by
  -- The two differ in how they are put together, not in what they read.
  funext r
  rw [fields]
  unfold andThen
  split
  next e n h => rw [h]
  next closing r' n h =>
    rw [h]
    rfl
  next f r' n h =>
    rw [h]
    unfold afterMark andThen
    dsimp only
    cases hFields : fields r' with
    | mk result m =>
      cases result with
      | error e => rfl
      | ok p => rfl

end Metered

/-- Each read for the fields of a record passes an octet or is the last. -/
theorem meters_fields (r : Reader) : Meters Metered.fields readFields r := by
  -- The fields that are left take fewer octets.
  induction hLength : r.rest.length using Nat.strong_induction_on generalizing r with
  | h length ih =>
    rw [funext readFields_eq, Metered.fields_eq]
    refine meters_andThen (g := fun _ => readAfterMark) (meters_mark r) ?_
    intro mark r₁ hMark
    cases mark with
    | close closing => exact meters_give ([], closing) r₁
    | field f =>
      have hShorter := readMark_length_lt hMark
      exact meters_andThen (f := fun _ q => Metered.give (f :: q.1, q.2))
        (g := fun _ q r => Except.ok ((f :: q.1, q.2), r))
        (ih r₁.rest.length (by omega) r₁ rfl) fun q r₂ _ => meters_give (f :: q.1, q.2) r₂

/-! ## §4. Records. -/

/-- A step that is repeated is metered if the step is. -/
theorem meters_times {t : Metered α} {step : Step α} (h : ∀ r, Meters t step r) (n : Nat)
    (r : Reader) : Meters (Metered.times t n) (times step n) r := by
  induction n generalizing r with
  | zero => exact meters_give [] r
  | succ n ih =>
    refine meters_andThen (g := fun _ a r => times step n r >>= fun p => .ok (a :: p.1, p.2))
      (h r) ?_
    intro a r₁ _
    exact meters_andThen (g := fun _ as r => .ok (a :: as, r)) (ih r₁)
      fun as r₂ _ => meters_give (a :: as) r₂

/-- The contents of a record are metered if their records are. -/
theorem meters_contents (typeId : TypeId) {t : Metered Record} {step : Step Record}
    (h : ∀ r, Meters t step r) (r : Reader) :
    Meters (Metered.contents typeId t) (readContents typeId step) r := by
  refine meters_andThen (g := fun _ => readCounted typeId step)
    (meters_read (passes_of_size (by omega) Reader.u32_passes) r) ?_
  intro count r₁ _
  refine meters_andThen (g := fun _ => readEnd typeId) (meters_times h count.toNat r₁) ?_
  -- The octet behind the last record has to end the contents.
  intro children r₂ _
  refine meters_andThen (g := endWith typeId children)
    (meters_read (passes_of_size (by omega) Reader.u8_passes) r₂) ?_
  intro code r₃ _
  unfold endWith
  split_ifs
  · exact meters_give children r₃
  · exact meters_fail (fun r => ⟨.mismatch typeId (.noEnd r₂.position code), r.position⟩) r₃ rfl

/-- What ends a record is metered if the level within is. -/
theorem meters_closing (c : Catalog) {t? : Option (Metered Record)}
    {below : Option (Step Record)} (typeId : TypeId) (fields : List Field × Closing)
    (h : Option.Rel (fun t step => ∀ r, Meters t step r) t? below) (r : Reader) :
    Meters (Metered.closing c t? typeId fields) (closeWith c below typeId fields) r := by
  obtain ⟨fields, closing⟩ := fields
  cases closing with
  | finish => exact meters_give _ r
  | contents =>
    unfold closeWith Metered.closing
    dsimp only
    split_ifs
    · -- The type holds nothing: the contents are refused at no cost.
      exact meters_fail (fun r => ⟨.mismatch typeId .contentsRefused, r.position⟩) r rfl
    · cases h with
      | none => exact meters_fail (fun r => ⟨.mismatch typeId .tooDeep, r.position⟩) r rfl
      | some hStep =>
        -- The contents cost what the level below makes of them; closing the record costs no more.
        exact meters_andThen
          (g := fun _ children r => Except.ok (Record.mk typeId _ _ (some children), r))
          (meters_contents typeId hStep r) fun children r₁ _ => meters_give _ r₁

namespace Metered

/-- Reads a record, contents being read with the given step if they may lie on a level below. -/
def record (c : Catalog) (below : Option (Metered Record)) : Metered Record :=
  (read Reader.u16).andThen fun _ typeId =>
    andThen fields fun _ q => closing c below typeId q

/-- Reads a record below which containers may lie so many levels deep. -/
def decodeWithin (c : Catalog) : Nat → Metered Record
  | 0 => record c none
  | levels + 1 => record c (some (decodeWithin c levels))

/-- Reads a record. -/
def decode (c : Catalog) : Metered Record :=
  decodeWithin c maxDepth

end Metered

/-- One level of decoding is metered if the level within is. -/
theorem meters_record (c : Catalog) {t? : Option (Metered Record)} {below : Option (Step Record)}
    (h : Option.Rel (fun t step => ∀ r, Meters t step r) t? below) (r : Reader) :
    Meters (Metered.record c t?) (decodeWith c below) r := by
  refine meters_andThen
    (g := fun _ typeId r => readFields r >>= fun q => closeWith c below typeId q.1 q.2)
    (meters_read (passes_of_size (by omega) Reader.u16_passes) r) ?_
  intro typeId r₁ _
  exact meters_andThen (g := fun _ fields => closeWith c below typeId fields) (meters_fields r₁)
    fun fields r₂ _ => meters_closing c typeId fields h r₂

/-- **Records are read with a count that stays behind the cursor**, on every level. -/
theorem meters_decodeWithin (c : Catalog) (levels : Nat) (r : Reader) :
    Meters (Metered.decodeWithin c levels) (decodeWithin c levels) r := by
  induction levels generalizing r with
  | zero =>
    rw [decodeWithin_zero]
    exact meters_record c .none r
  | succ levels ih =>
    rw [decodeWithin_succ]
    exact meters_record c (.some ih) r

/-! ## §5. How many records, and how deep. -/

mutual

/-- **Three octets are the least that a record takes**: two for its type, one for its end. -/
theorem IsRecord.three_mul_total_le {c : Catalog} {depth : Nat} {octets : List UInt8}
    {rec : Record} : IsRecord c depth octets rec → 3 * rec.total ≤ octets.length
  | .ended id h => by
    simp only [total, List.length_append, littleEndian_length, List.length_singleton]
    omega
  | .holding id h hType hDepth hCount hChildren => by
    have hInner := hChildren.three_mul_totals_le
    simp only [total, List.length_append, List.length_cons, littleEndian_length]
    omega

/-- Records one after another take three octets each at least. -/
theorem AreRecords.three_mul_totals_le {c : Catalog} {depth : Nat} {octets : List UInt8}
    {rs : List Record} : AreRecords c depth octets rs → 3 * totals rs ≤ octets.length
  | .nil => Nat.le_refl 0
  | .cons h hs => by
    have hFirst := h.three_mul_total_le
    have hOthers := hs.three_mul_totals_le
    simp only [totals, List.length_append]
    omega

end

/-- The record lies in another one, with so many records around it. -/
inductive LiesIn (inner : Record) : Nat → Record → Prop where
  /-- There is nothing around the record itself. -/
  | self : LiesIn inner 0 inner
  /-- What holds one of them is around it too. -/
  | held {n : Nat} {child : Record} {typeId : TypeId} {known : Bool} {updates : List Update}
    {children : List Record} (h : LiesIn inner n child) (hMem : child ∈ children) :
    LiesIn inner (n + 1) (.mk typeId known updates (some children))

/-- Each of the records is one for some octets. -/
theorem AreRecords.exists_isRecord {c : Catalog} {depth : Nat} {octets : List UInt8}
    {rs : List Record} (h : AreRecords c depth octets rs) :
    ∀ r ∈ rs, ∃ octets, IsRecord c depth octets r := by
  induction rs generalizing octets with
  | nil => exact fun r hMem => absurd hMem List.not_mem_nil
  | cons r rs ih =>
    cases h with
    | cons hFirst hOthers => exact List.forall_mem_cons.2 ⟨⟨_, hFirst⟩, ih hOthers⟩

/-- **Nothing lies more than 24 levels deep.** -/
theorem IsRecord.depth_add_le {c : Catalog} {depth : Nat} {octets : List UInt8} {rec : Record}
    (hRecord : IsRecord c depth octets rec) {inner : Record} {n : Nat} (h : inner.LiesIn n rec)
    (hDepth : depth ≤ 24) : depth + n ≤ 24 := by
  induction h generalizing depth octets with
  | self => exact hDepth
  | held _ hMem ih =>
    cases hRecord with
    | holding id _ _ hAbove _ hChildren =>
      obtain ⟨_, hChild⟩ := hChildren.exists_isRecord _ hMem
      have hBelow := ih hChild hAbove
      omega

/-! ## §6. All of it. -/

/-- **Reading ends within its octets, and soon.**  It is done after no more reads than there are
octets passed, but for one more that may have failed.  The cursor never goes back and never leaves
the octets that there are, whether reading goes through or fails.  A record that is read takes three
octets at least for itself and for each one inside, of which none has more than 24 around it. -/
theorem decoding_bounded (c : Catalog) (r : Reader) :
    (Metered.decode c r).1 = decode c r
      ∧ match Metered.decode c r with
        | (.ok (rec, r'), reads) =>
          r.position ≤ r'.position ∧ r'.position ≤ r.position + r.rest.length
            ∧ r'.rest = r.rest.drop (r'.position - r.position)
            ∧ reads ≤ r'.position - r.position ∧ 3 * rec.total ≤ r'.position - r.position
            ∧ ∀ inner n, LiesIn inner n rec → n ≤ 24
        | (.error failure, reads) =>
          r.position ≤ failure.position ∧ failure.position ≤ r.position + r.rest.length
            ∧ reads ≤ failure.position - r.position + 1 := by
  have hMeters : Meters (Metered.decode c) (decode c) r := meters_decodeWithin c maxDepth r
  refine ⟨hMeters.result, ?_⟩
  have hResult := hMeters.result
  have hPassed := hMeters.passed
  have hStopped := hMeters.stopped
  cases hDecode : Metered.decode c r with
  | mk result reads =>
    rw [hDecode] at hResult hPassed hStopped
    dsimp only at hResult hPassed hStopped ⊢
    cases result with
    | error failure =>
      obtain ⟨hBehind, hWithin, hReads⟩ := hStopped failure hResult.symm
      exact ⟨hBehind, hWithin, by omega⟩
    | ok found =>
      obtain ⟨rec, r'⟩ := found
      obtain ⟨used, hPasses, hReads⟩ := hPassed rec r' hResult.symm
      -- The octets that are passed are a record, and none that lies in another.
      have hRecord : IsRecord c 0 used rec := by
        obtain ⟨used', hPasses', hRecord⟩ := (reads_decodeWithin c maxDepth rfl r rec r').1
          hResult.symm
        rwa [hPasses.unique hPasses']
      have hTotal := hRecord.three_mul_total_le
      have hPosition := hPasses.position_eq
      have hLength := hPasses.length_eq
      have hUsed : r'.position - r.position = used.length := by omega
      refine ⟨by omega, by omega, ?_, by omega, by omega, ?_⟩
      · rw [hUsed, hPasses.rest_eq, List.drop_left]
      · intro inner n hLies
        have hDepth := hRecord.depth_add_le hLies (Nat.zero_le 24)
        omega

/-- Something that says it holds as many items as can be said, and holds none: one read for its
type, one for octet 23, one for the number, and one that finds nothing. -/
example : (Metered.decode Catalog.empty ⟨0, [1, 0, 23, 255, 255, 255, 255]⟩).2 = 4 := by
  decide +kernel

end Record

end Homestead
