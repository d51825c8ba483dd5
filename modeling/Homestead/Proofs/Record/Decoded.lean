/-
  Homestead.Proofs.Record.Decoded
  ───────────────────────────────
  **A RECORD IS READ FROM ITS OWN OCTETS, AND FITS.**

  What a read gives depends on the octets that it passes and on nothing
  behind them: with anything else in their place, or with nothing at all, it
  gives the same value.  So a record can be cut out of a row and still be
  read.  And whatever is read fits the catalog that it was read with.

  Main results:
    * `Local`, `local_bind` — reads that look no further than they go;
    * `local_decode`, `local_times` — records, one and many;
    * `GivenByReading.decode` — what every record has that was read;
    * `fits_of_decode` — a record that was read fits.
-/
import Homestead.Proofs.Record.Filling
import Homestead.Proofs.Stream.Datum

open Homestead.Stream

namespace Homestead

/-! ## §1. Reads that look no further than they go. -/

namespace Stream.Reader

/-- The read depends on the octets that it passes only. -/
def Local {α : Type} (read : Reader → Option (α × Reader)) : Prop :=
  ∀ r a r', read r = some (a, r') → ∃ used, Passes r r' used
    ∧ ∀ rest, read ⟨r.position, used ++ rest⟩ = some (a, ⟨r'.position, rest⟩)

/-- Taking octets looks at no octet behind them. -/
theorem local_take (n : Nat) : Local (take n) := by
  intro r octets r' h
  obtain ⟨hPasses, hLength⟩ := take_eq_some.1 h
  refine ⟨octets, hPasses, ?_⟩
  intro rest
  exact take_eq_some.2 ⟨⟨rfl, hPasses.position_eq⟩, hLength⟩

/-- A reading that is local stays local when its result is rewritten. -/
theorem Local.map {α β : Type} {read : Reader → Option (α × Reader)} (h : Local read)
    (f : α → β) : Local fun r => (read r).map fun p => (f p.1, p.2) := by
  intro r b r' hRead
  obtain ⟨⟨a, r₁⟩, hFirst, hPair⟩ := Option.map_eq_some_iff.1 hRead
  obtain ⟨rfl, rfl⟩ := Prod.mk.inj hPair
  obtain ⟨used, hPasses, hAgain⟩ := h r a r₁ hFirst
  refine ⟨used, hPasses, ?_⟩
  intro rest
  exact Option.map_eq_some_iff.2 ⟨(a, ⟨r₁.position, rest⟩), hAgain rest, rfl⟩

/-- A number is read from its own octets alone. -/
theorem local_number (width : Nat) : Local (number width) :=
  (local_take width).map ofLittleEndian

theorem local_u8 : Local u8 :=
  (local_number 1).map UInt8.ofNat

theorem local_u16 : Local u16 :=
  (local_number 2).map UInt16.ofNat

theorem local_u32 : Local u32 :=
  (local_number 4).map UInt32.ofNat

/-- A block is read from its length and that many octets. -/
theorem local_block : Local block := by
  intro r octets r' h
  obtain ⟨⟨n, r₁⟩, hNumber, hTake⟩ := Option.bind_eq_some_iff.1 h
  obtain ⟨front, hFront, hAgain⟩ := local_number 2 r n r₁ hNumber
  obtain ⟨back, hBack, hAgain'⟩ := local_take n r₁ octets r' hTake
  refine ⟨front ++ back, hFront.trans hBack, ?_⟩
  intro rest
  unfold block
  rw [List.append_assoc, hAgain]
  exact hAgain' rest

/-- Each format is read from its own octets alone. -/
theorem local_datum (f : Format) : Local (datum f) := by
  cases f with
  | u8 => exact local_u8.map Datum.u8
  | u16 => exact local_u16.map Datum.u16
  | u32 => exact local_u32.map Datum.u32
  | i32 => exact (local_u32.map UInt32.toInt32).map Datum.i32
  | block => exact local_block.map Datum.block
  | raw size => exact (local_take size).map Datum.raw

end Stream.Reader

/-- A result that is there is the result. -/
theorem eq_ok_of_isSome {ε α : Type} (x : Except ε α) (a : α) (h : x.toOption.isSome = true) :
    x = .ok (x.toOption.getD a) := by
  cases x with
  | error e => cases h
  | ok a => rfl

/-- Two steps go through if each of them does. -/
theorem bind_eq_ok {ε α β : Type} {x : Except ε α} {f : α → Except ε β} {b : β} :
    x >>= f = .ok b ↔ ∃ a, x = .ok a ∧ f a = .ok b := by
  cases x with
  | error e =>
    constructor
    · intro h
      cases h
    · rintro ⟨a, h, _⟩
      cases h
  | ok a =>
    constructor
    · intro h
      exact ⟨a, rfl, h⟩
    · rintro ⟨a', h, hNext⟩
      cases h
      exact hNext

namespace Record

/-! ## §2. Steps that look no further than they go. -/

/-- The step depends on the octets that it passes only. -/
def Local {α : Type} (step : Step α) : Prop :=
  ∀ r a r', step r = .ok (a, r') → ∃ used, Reader.Passes r r' used
    ∧ ∀ rest, step ⟨r.position, used ++ rest⟩ = .ok (a, ⟨r'.position, rest⟩)

variable {α β : Type}

/-- A step that reads nothing is local. -/
theorem local_pure (a : α) : Local fun r => .ok (a, r) := by
  intro r b r' h
  obtain ⟨rfl, rfl⟩ := Prod.mk.inj (Except.ok.inj h)
  exact ⟨[], ⟨rfl, rfl⟩, fun rest => rfl⟩

/-- A step that fails is local: nothing it gives depends on what follows. -/
theorem local_throw (failure : Reader → Failure) : Local (α := α) fun r => .error (failure r) := by
  intro r a r' h
  cases h

/-- A reading that is local stays so as a step that can fail. -/
theorem local_value {read : Reader → Option (α × Reader)} (h : Reader.Local read) :
    Local (value read) := by
  intro r a r' hValue
  obtain ⟨used, hPasses, hAgain⟩ := h r a r' (value_eq_ok.1 hValue)
  exact ⟨used, hPasses, fun rest => value_eq_ok.2 (hAgain rest)⟩

/-- **One step after another**; the second may tell in a failure where the first one began. -/
theorem local_bind {x : Step α} {f : Nat → α → Step β} (hx : Local x)
    (hf : ∀ n a, Local (f n a)) : Local fun r => x r >>= fun p => f r.position p.1 p.2 := by
  intro r b r' h
  obtain ⟨⟨a, r₁⟩, hFirst, hSecond⟩ := bind_eq_ok.1 h
  obtain ⟨front, hFront, hAgain⟩ := hx r a r₁ hFirst
  obtain ⟨back, hBack, hAgain'⟩ := hf r.position a r₁ b r' hSecond
  refine ⟨front ++ back, hFront.trans hBack, ?_⟩
  intro rest
  dsimp only
  rw [List.append_assoc, hAgain]
  exact hAgain' rest

/-- The data of a field are read from their own octets alone. -/
theorem local_readData (fs : List Format) : Local (readData fs) := by
  induction fs with
  | nil => exact local_pure []
  | cons f fs ih =>
    refine local_bind (f := fun _ d r => readData fs r >>= fun p => .ok (d :: p.1, p.2))
      (local_value (Reader.local_datum f)) ?_
    intro _ d
    exact local_bind (f := fun _ ds r => .ok (d :: ds, r)) ih fun _ ds => local_pure (d :: ds)

/-- **So many values are read from their own octets** if each of them is. -/
theorem local_times {step : Step α} (h : Local step) (n : Nat) : Local (times step n) := by
  induction n with
  | zero => exact local_pure []
  | succ n ih =>
    refine local_bind (f := fun _ a r => times step n r >>= fun p => .ok (a :: p.1, p.2)) h ?_
    intro _ a
    exact local_bind (f := fun _ as r => .ok (a :: as, r)) ih fun _ as => local_pure (a :: as)

/-- What follows the code of a mark that begins there. -/
def readAfterCode (start : Nat) (code : UInt8) : Step Mark := fun r =>
  if code = endCode then .ok (.close .finish, r)
  else if code = contentsCode then .ok (.close .contents, r)
  else match Tag.ofCode? code with
    | none => .error ⟨.unknownTag code start, r.position⟩
    | some tag => readData tag.formats r >>= fun p => .ok (.field ⟨tag, p.1⟩, p.2)

/-- A tag is read from its own octet. -/
theorem local_readMark : Local readMark := by
  refine local_bind (f := readAfterCode) (local_value Reader.local_u8) ?_
  intro n code
  unfold readAfterCode
  split_ifs
  · exact local_pure _
  · exact local_pure _
  · -- The code is no mark of an end; it is a tag of the format, or none.
    cases Tag.ofCode? code with
    | none => exact local_throw fun r' => ⟨.unknownTag code n, r'.position⟩
    | some tag =>
      exact local_bind (f := fun _ payload r => Except.ok (Mark.field ⟨tag, payload⟩, r))
        (local_readData tag.formats) fun _ payload => local_pure (Mark.field ⟨tag, payload⟩)

/-- The fields of a record, with what ends them, are read from their own octets alone. -/
theorem local_readFields : Local readFields := by
  intro r
  -- The fields that are left take fewer octets.
  induction hLength : r.rest.length using Nat.strong_induction_on generalizing r with
  | h length ih =>
    rintro ⟨fs, closing⟩ r' h
    rw [readFields] at h
    split at h
    next => cases h
    next closing' r₁ hMark =>
      obtain ⟨hFirst, rfl⟩ := Prod.mk.inj (Except.ok.inj h)
      obtain ⟨rfl, rfl⟩ := Prod.mk.inj hFirst
      obtain ⟨used, hPasses, hAgain⟩ := local_readMark r _ _ hMark
      exact ⟨used, hPasses, fun rest => readFields_of_close (hAgain rest)⟩
    next f r₁ hMark =>
      have hShorter := readMark_length_lt hMark
      split at h
      next => cases h
      next fs' closing' r₂ hFields =>
        obtain ⟨hFirst, rfl⟩ := Prod.mk.inj (Except.ok.inj h)
        obtain ⟨rfl, rfl⟩ := Prod.mk.inj hFirst
        obtain ⟨front, hFront, hAgain⟩ := local_readMark r _ _ hMark
        obtain ⟨back, hBack, hAgain'⟩ := ih r₁.rest.length (by omega) r₁ rfl _ _ hFields
        refine ⟨front ++ back, hFront.trans hBack, ?_⟩
        intro rest
        rw [List.append_assoc]
        exact readFields_of_field (hAgain _) (hAgain' rest)

/-- What follows the octet behind the contents of a record, which begins there. -/
def endWith (typeId : TypeId) (children : List Record) (start : Nat) (code : UInt8) :
    Step (List Record) := fun r =>
  if code = endCode then .ok (children, r)
  else .error ⟨.mismatch typeId (.noEnd start code), r.position⟩

/-- What follows the contents of a record: the octet that ends it. -/
def readEnd (typeId : TypeId) (children : List Record) : Step (List Record) := fun r =>
  value Reader.u8 r >>= fun p => endWith typeId children r.position p.1 p.2

/-- What follows the number of the contents of a record. -/
def readCounted (typeId : TypeId) (step : Step Record) (count : UInt32) : Step (List Record) :=
  fun r => times step count.toNat r >>= fun p => readEnd typeId p.1 p.2

/-- The contents are read from their own octets, if each record among them is. -/
theorem local_readContents (typeId : TypeId) {step : Step Record} (h : Local step) :
    Local (readContents typeId step) := by
  -- First the number of records, then as many records, then the end mark.
  refine local_bind (f := fun _ => readCounted typeId step) (local_value Reader.local_u32) ?_
  intro _ count
  refine local_bind (f := fun _ => readEnd typeId) (local_times h count.toNat) ?_
  intro _ children
  refine local_bind (f := endWith typeId children) (local_value Reader.local_u8) ?_
  intro start code
  unfold endWith
  split_ifs
  · exact local_pure children
  · -- The error names where the mark was read, which moves with the reader.
    exact local_throw fun r => ⟨.mismatch typeId (.noEnd start code), r.position⟩

/-- What comes behind the fields of a record, contents being read with the given step if they may
lie on a level below. -/
def closeWith (c : Catalog) (below : Option (Step Record)) (typeId : TypeId)
    (fields : List Field × Closing) : Step Record := fun r =>
  let type := c.usable? typeId
  let updates := fields.1.filterMap (Field.update? (type.map (·.variant)))
  match fields.2 with
  | .finish => .ok (.mk typeId type.isSome updates none, r)
  | .contents =>
    if !mayHold (type.map (·.variant)) then .error ⟨.mismatch typeId .contentsRefused, r.position⟩
    else match below with
      | none => .error ⟨.mismatch typeId .tooDeep, r.position⟩
      | some step => readContents typeId step r >>= fun p =>
        .ok (.mk typeId type.isSome updates (some p.1), p.2)

/-- The steps of a record: its type, its fields and what comes behind them. -/
def decodeWith (c : Catalog) (below : Option (Step Record)) : Step Record := fun r =>
  value Reader.u16 r >>= fun p => readFields p.2 >>= fun q => closeWith c below p.1 q.1 q.2

/-- At the innermost level no contents are read. -/
theorem decodeWithin_zero (c : Catalog) : decodeWithin c 0 = decodeWith c none := by
  funext r
  unfold decodeWithin decodeWith closeWith
  rfl

/-- One level further out, the contents are read by the decoder of the level within. -/
theorem decodeWithin_succ (c : Catalog) (levels : Nat) :
    decodeWithin c (levels + 1) = decodeWith c (some (decodeWithin c levels)) := by
  funext r
  rw [decodeWithin.eq_def]
  unfold decodeWith closeWith
  rfl

/-- The end of a record is local, whether it is an end mark or contents. -/
theorem local_closeWith (c : Catalog) {below : Option (Step Record)} (typeId : TypeId)
    (fields : List Field × Closing) (h : ∀ step ∈ below, Local step) :
    Local (closeWith c below typeId fields) := by
  obtain ⟨fields, closing⟩ := fields
  cases closing with
  | finish => exact local_pure _
  | contents =>
    unfold closeWith
    dsimp only
    split_ifs
    · -- A refusal depends on the type and not on what follows.
      exact local_throw fun r => ⟨.mismatch typeId .contentsRefused, r.position⟩
    · cases below with
      | none => exact local_throw fun r => ⟨.mismatch typeId .tooDeep, r.position⟩
      | some step =>
        exact local_bind (f := fun _ children r => Except.ok (Record.mk typeId _ _ (some children), r))
          (local_readContents typeId (h step rfl)) fun _ children => local_pure _

/-- One level of the decoder is local if the level within is. -/
theorem local_decodeWith (c : Catalog) {below : Option (Step Record)}
    (h : ∀ step ∈ below, Local step) : Local (decodeWith c below) := by
  refine local_bind
    (f := fun _ typeId r => readFields r >>= fun q => closeWith c below typeId q.1 q.2)
    (local_value Reader.local_u16) ?_
  intro _ typeId
  exact local_bind (f := fun _ fields => closeWith c below typeId fields) local_readFields
    fun _ fields => local_closeWith c typeId fields h

/-- The decoder is local at every depth, by induction over the levels. -/
theorem local_decodeWithin (c : Catalog) (levels : Nat) : Local (decodeWithin c levels) := by
  induction levels with
  | zero =>
    rw [decodeWithin_zero]
    exact local_decodeWith c fun _ h => by cases h
  | succ levels ih =>
    rw [decodeWithin_succ]
    refine local_decodeWith c ?_
    intro step hStep
    rwa [← Option.some_inj.1 hStep]

/-- **A record is read from its own octets.** -/
theorem local_decode (c : Catalog) : Local (decode c) :=
  local_decodeWithin c maxDepth

/-! ## §3. What is read fits. -/

/-- A step that is taken n + 1 times succeeds exactly if it does once and then n times. -/
theorem times_succ_eq_ok {step : Step α} {n : Nat} {r r' : Reader} {as : List α} :
    times step (n + 1) r = .ok (as, r') ↔ ∃ a r₁ as', step r = .ok (a, r₁)
      ∧ times step n r₁ = .ok (as', r') ∧ as = a :: as' := by
  rw [times, bind_eq_ok]
  constructor
  · rintro ⟨⟨a, r₁⟩, hFirst, hRest⟩
    dsimp only at hRest
    obtain ⟨⟨as', r₂⟩, hOthers, hPair⟩ := bind_eq_ok.1 hRest
    obtain ⟨rfl, rfl⟩ := Prod.mk.inj (Except.ok.inj hPair)
    exact ⟨a, r₁, as', hFirst, hOthers, rfl⟩
  · rintro ⟨a, r₁, as', hFirst, hRest, rfl⟩
    exact ⟨(a, r₁), hFirst, bind_eq_ok.2 ⟨(as', r'), hRest, rfl⟩⟩

/-- What one step gives holds of all that is read with it. -/
theorem forall_of_times {step : Step α} {P : α → Prop} (h : ∀ r a r', step r = .ok (a, r') → P a)
    (n : Nat) {r r' : Reader} {as : List α} (hTimes : times step n r = .ok (as, r')) :
    ∀ a ∈ as, P a := by
  induction n generalizing r as with
  | zero =>
    obtain ⟨rfl, rfl⟩ := Prod.mk.inj (Except.ok.inj hTimes)
    exact fun a hMem => absurd hMem List.not_mem_nil
  | succ n ih =>
    obtain ⟨a, r₁, as', hFirst, hRest, rfl⟩ := times_succ_eq_ok.1 hTimes
    exact List.forall_mem_cons.2 ⟨h r a r₁ hFirst, ih hRest⟩

/-- Records fit together if each of them fits. -/
theorem fitAll_iff {c : Catalog} {rs : List Record} : FitAll c rs ↔ ∀ r ∈ rs, r.Fits c := by
  induction rs with
  | nil => exact ⟨fun _ r hMem => absurd hMem List.not_mem_nil, fun _ => trivial⟩
  | cons r rs ih => rw [FitAll, ih, List.forall_mem_cons]

/-- A step that is taken n times gives n results. -/
theorem length_of_times {step : Step α} (n : Nat) {r r' : Reader} {as : List α}
    (h : times step n r = .ok (as, r')) : as.length = n := by
  induction n generalizing r as with
  | zero =>
    obtain ⟨rfl, rfl⟩ := Prod.mk.inj (Except.ok.inj h)
    rfl
  | succ n ih =>
    obtain ⟨a, r₁, as', _, hRest, rfl⟩ := times_succ_eq_ok.1 h
    rw [List.length_cons, ih hRest]

/-- Reading gives records a property: those without contents have it, and those with contents have
it if the contents do, of which there are no more than four octets count. -/
structure GivenByReading (c : Catalog) (P : Record → Prop) : Prop where
  /-- Records without contents have it. -/
  ended : ∀ (typeId : TypeId) (fs : List Field), P (.mk typeId (c.usable? typeId).isSome
    (fs.filterMap (Field.update? ((c.usable? typeId).map (·.variant)))) none)
  /-- Records with contents have it from these. -/
  holding : ∀ (typeId : TypeId) (fs : List Field) (children : List Record),
    mayHold ((c.usable? typeId).map (·.variant)) = true → children.length < 4294967296 →
    (∀ r ∈ children, P r) → P (.mk typeId (c.usable? typeId).isSome
      (fs.filterMap (Field.update? ((c.usable? typeId).map (·.variant)))) (some children))

variable {c : Catalog} {P : Record → Prop}

/-- What comes behind the fields gives a record the property if the contents have it. -/
theorem GivenByReading.closeWith (hP : GivenByReading c P) {below : Option (Step Record)}
    {typeId : TypeId} {fields : List Field × Closing} {r r' : Reader} {rec : Record}
    (hBelow : ∀ step ∈ below, ∀ r a r', step r = .ok (a, r') → P a)
    (h : closeWith c below typeId fields r = .ok (rec, r')) : P rec := by
  obtain ⟨fields, closing⟩ := fields
  unfold Record.closeWith at h
  cases closing with
  | finish =>
    obtain ⟨rfl, -⟩ := Prod.mk.inj (Except.ok.inj h)
    exact hP.ended typeId fields
  | contents =>
    dsimp only at h
    split_ifs at h with hMay
    cases below with
    | none => cases h
    | some step =>
      obtain ⟨⟨children, r₁⟩, hContents, hPair⟩ := bind_eq_ok.1 h
      obtain ⟨rfl, -⟩ := Prod.mk.inj (Except.ok.inj hPair)
      obtain ⟨⟨count, r₂⟩, _, hContents⟩ := bind_eq_ok.1 hContents
      obtain ⟨⟨children', r₃⟩, hTimes, hEnd⟩ := bind_eq_ok.1 hContents
      obtain ⟨⟨code, r₄⟩, _, hEnd⟩ := bind_eq_ok.1 hEnd
      dsimp only at hEnd
      split_ifs at hEnd
      obtain ⟨rfl, -⟩ := Prod.mk.inj (Except.ok.inj hEnd)
      refine hP.holding typeId fields children' (by simpa using hMay) ?_ ?_
      · -- The count is a number of four octets.
        rw [length_of_times count.toNat hTimes]
        exact count.toNat_lt
      · exact forall_of_times (hBelow step rfl) count.toNat hTimes

/-- One level of the decoder gives what reading gives, if the level within does. -/
theorem GivenByReading.decodeWith (hP : GivenByReading c P) {below : Option (Step Record)}
    {r r' : Reader} {rec : Record}
    (hBelow : ∀ step ∈ below, ∀ r a r', step r = .ok (a, r') → P a)
    (h : decodeWith c below r = .ok (rec, r')) : P rec := by
  obtain ⟨⟨typeId, r₁⟩, _, h⟩ := bind_eq_ok.1 h
  obtain ⟨⟨fields, r₂⟩, _, h⟩ := bind_eq_ok.1 h
  exact hP.closeWith hBelow h

/-- What reading gives is true of every decoded record, by induction over the levels. -/
theorem GivenByReading.decodeWithin (hP : GivenByReading c P) (levels : Nat) {r r' : Reader}
    {rec : Record} (h : decodeWithin c levels r = .ok (rec, r')) : P rec := by
  induction levels generalizing r r' rec with
  | zero =>
    rw [decodeWithin_zero] at h
    exact hP.decodeWith (fun _ hNone => by cases hNone) h
  | succ levels ih =>
    rw [decodeWithin_succ] at h
    refine hP.decodeWith ?_ h
    intro step hStep r a r' hRead
    rw [← Option.some_inj.1 hStep] at hRead
    exact ih hRead

/-- **What reading gives, every record has that was read.** -/
theorem GivenByReading.decode (hP : GivenByReading c P) {r r' : Reader} {rec : Record}
    (h : decode c r = .ok (rec, r')) : P rec :=
  hP.decodeWithin maxDepth h

/-- A record that is read fits its catalog. -/
theorem fits_givenByReading (c : Catalog) : GivenByReading c (Fits c) where
  ended _ _ := rfl
  holding _ _ _ hMay _ hChildren := ⟨rfl, hMay, fitAll_iff.2 hChildren⟩

/-- **A record that was read fits the catalog that it was read with.** -/
theorem fits_of_decode {r r' : Reader} {rec : Record}
    (h : decode c r = .ok (rec, r')) : rec.Fits c :=
  (fits_givenByReading c).decode h

end Record

end Homestead
