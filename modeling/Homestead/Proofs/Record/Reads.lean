/-
  Homestead.Proofs.Record.Reads
  ─────────────────────────────
  **WHAT A STEP READS, AS A LANGUAGE.**

  A language says which octets stand for a value.  A step reads a language
  if it gives a value just where octets that stand for the value come next,
  and goes right behind them.  So the step misses nothing of the language
  and takes nothing else for it.

  Main results:
    * `reads_bind` — one step after another reads one language behind another;
    * `reads_datum`, `reads_readData` — values in their layouts;
    * `reads_readFields` — fields and the octet that closes them.
-/
import Homestead.Proofs.Record.Decoded

open Homestead.Stream

namespace Homestead

namespace Stream

/-! ## §1. Numbers. -/

/-- Octets are those of the number that they make. -/
theorem littleEndian_ofLittleEndian (bs : List UInt8) :
    littleEndian bs.length (ofLittleEndian bs) = bs := by
  induction bs with
  | nil => rfl
  | cons b bs ih =>
    have hByte := b.toNat_lt
    -- The lowest octet of the number is the first one, and what is left of it gives the others.
    have hFirst : UInt8.ofNat (b.toNat + 256 * ofLittleEndian bs) = b := by
      apply UInt8.toNat.inj
      rw [UInt8.toNat_ofNat']
      omega
    have hRest : (b.toNat + 256 * ofLittleEndian bs) / 256 = ofLittleEndian bs := by
      omega
    show UInt8.ofNat (b.toNat + 256 * ofLittleEndian bs)
      :: littleEndian bs.length ((b.toNat + 256 * ofLittleEndian bs) / 256) = b :: bs
    rw [hFirst, hRest, ih]

namespace Reader

/-- A cursor that passes two runs of octets stands between them on its way. -/
theorem Passes.split {r r' : Reader} {front back : List UInt8} (h : Passes r r' (front ++ back)) :
    ∃ between, Passes r between front ∧ Passes between r' back := by
  refine ⟨⟨r.position + front.length, back ++ r'.rest⟩, ⟨?_, rfl⟩, ⟨rfl, ?_⟩⟩
  · rw [h.rest_eq, List.append_assoc]
  · rw [h.position_eq, List.length_append, Nat.add_assoc]

/-- A reader that passes nothing has not moved. -/
theorem Passes.refl_iff {r r' : Reader} : Passes r r' [] ↔ r' = r := by
  constructor
  · rintro ⟨hRest, hPosition⟩
    cases r
    cases r'
    simp_all
  · rintro rfl
    exact ⟨rfl, rfl⟩

/-- There is one run of octets between two places. -/
theorem Passes.unique {r r' : Reader} {used used' : List UInt8} (h : Passes r r' used)
    (h' : Passes r r' used') : used = used' :=
  List.append_cancel_right (h.rest_eq.symm.trans h'.rest_eq)

/-- Where the cursor stands, if it passes the octets. -/
theorem Passes.eq {r r' : Reader} {used : List UInt8} (h : Passes r r' used) :
    r = ⟨r.position, used ++ r'.rest⟩ ∧ r' = ⟨r.position + used.length, r'.rest⟩ := by
  obtain ⟨position, rest⟩ := r
  obtain ⟨position', rest'⟩ := r'
  obtain ⟨hRest, hPosition⟩ := h
  simp_all

/-- A number that is read was written in its width, low octet first. -/
theorem passes_number {width n : Nat} {r r' : Reader} (h : r.number width = some (n, r')) :
    Passes r r' (littleEndian width n) ∧ n < capacity width := by
  obtain ⟨octets, hPasses, rfl, rfl⟩ := number_eq_some h
  rw [littleEndian_ofLittleEndian]
  exact ⟨hPasses, ofLittleEndian_lt octets⟩

/-- An octet that is read is the octet that is passed. -/
theorem passes_u8 {n : UInt8} {r r' : Reader} (h : r.u8 = some (n, r')) :
    Passes r r' (Datum.u8 n).octets := by
  obtain ⟨⟨m, _⟩, hNumber, hPair⟩ := Option.map_eq_some_iff.1 h
  obtain ⟨rfl, rfl⟩ := Prod.mk.inj hPair
  obtain ⟨hPasses, hLess⟩ := passes_number hNumber
  rwa [Datum.octets, UInt8.toNat_ofNat', Nat.mod_eq_of_lt (show m < 2 ^ 8 from hLess)]

/-- A number of two octets that is read was written so. -/
theorem passes_u16 {n : UInt16} {r r' : Reader} (h : r.u16 = some (n, r')) :
    Passes r r' (Datum.u16 n).octets := by
  obtain ⟨⟨m, _⟩, hNumber, hPair⟩ := Option.map_eq_some_iff.1 h
  obtain ⟨rfl, rfl⟩ := Prod.mk.inj hPair
  obtain ⟨hPasses, hLess⟩ := passes_number hNumber
  rwa [Datum.octets, UInt16.toNat_ofNat', Nat.mod_eq_of_lt (show m < 2 ^ 16 from hLess)]

/-- A number of four octets that is read was written so. -/
theorem passes_u32 {n : UInt32} {r r' : Reader} (h : r.u32 = some (n, r')) :
    Passes r r' (Datum.u32 n).octets := by
  obtain ⟨⟨m, _⟩, hNumber, hPair⟩ := Option.map_eq_some_iff.1 h
  obtain ⟨rfl, rfl⟩ := Prod.mk.inj hPair
  obtain ⟨hPasses, hLess⟩ := passes_number hNumber
  rwa [Datum.octets, UInt32.toNat_ofNat', Nat.mod_eq_of_lt (show m < 2 ^ 32 from hLess)]

/-- A signed number that is read was written so. -/
theorem passes_i32 {n : Int32} {r r' : Reader} (h : r.i32 = some (n, r')) :
    Passes r r' (Datum.i32 n).octets := by
  obtain ⟨⟨m, _⟩, hNumber, hPair⟩ := Option.map_eq_some_iff.1 h
  obtain ⟨rfl, rfl⟩ := Prod.mk.inj hPair
  have hPasses := passes_u32 hNumber
  rwa [Datum.octets, UInt32.toUInt32_toInt32]

/-- A block that is read was written with its length before it. -/
theorem passes_block {octets : List UInt8} {r r' : Reader} (h : r.block = some (octets, r')) :
    Passes r r' (Datum.block octets).octets ∧ octets.length < 65536 := by
  obtain ⟨⟨n, between⟩, hNumber, hTake⟩ := Option.bind_eq_some_iff.1 h
  obtain ⟨hBack, rfl⟩ := take_eq_some.1 hTake
  obtain ⟨hFront, hLess⟩ := passes_number hNumber
  exact ⟨hFront.trans hBack, hLess⟩

/-- **A value that was read has the layout that it was read in**, and its octets were passed. -/
theorem passes_datum {f : Format} {d : Datum} {r r' : Reader} (h : r.datum f = some (d, r')) :
    Passes r r' d.octets ∧ d.format = f ∧ d.fits = true := by
  -- One reader for each layout, and each passes over what it read.
  cases f <;> obtain ⟨⟨a, _⟩, hRead, hPair⟩ := Option.map_eq_some_iff.1 h <;>
    obtain ⟨rfl, rfl⟩ := Prod.mk.inj hPair
  case u8 => exact ⟨passes_u8 hRead, rfl, rfl⟩
  case u16 => exact ⟨passes_u16 hRead, rfl, rfl⟩
  case u32 => exact ⟨passes_u32 hRead, rfl, rfl⟩
  case i32 => exact ⟨passes_i32 hRead, rfl, rfl⟩
  case block =>
    obtain ⟨hPasses, hLess⟩ := passes_block hRead
    exact ⟨hPasses, rfl, decide_eq_true hLess⟩
  case raw size =>
    obtain ⟨hPasses, rfl⟩ := take_eq_some.1 hRead
    exact ⟨hPasses, rfl, rfl⟩

end Reader

end Stream

namespace Record

/-! ## §2. Languages. -/

/-- Which octets stand for a value. -/
abbrev Language (α : Type) : Type :=
  List UInt8 → α → Prop

/-- The step gives a value just where octets that stand for the value come next, and goes right
behind them. -/
def Reads {α : Type} (step : Step α) (L : Language α) : Prop :=
  ∀ r a r', step r = .ok (a, r') ↔ ∃ used, Reader.Passes r r' used ∧ L used a

/-- Octets of one language with octets of another one behind them, which may depend on the value
of the first. -/
def Language.andThen {α β : Type} (L : Language α) (M : α → Language β) : Language β :=
  fun used b => ∃ front back a, used = front ++ back ∧ L front a ∧ M a back b

variable {α β : Type}

/-- A step reads every language that says the same as its own. -/
theorem Reads.congr {step : Step α} {L M : Language α} (h : Reads step L)
    (hSame : ∀ used a, L used a ↔ M used a) : Reads step M := by
  intro r a r'
  rw [h r a r']
  exact exists_congr fun used => and_congr_right fun _ => hSame used a

/-- A step that is right about what it gives, and gives all that there is. -/
theorem Reads.of_octets {step : Step α} {L : Language α}
    (hSound : ∀ r a r', step r = .ok (a, r') → ∃ used, Reader.Passes r r' used ∧ L used a)
    (hComplete : ∀ used a rest position, L used a →
      step ⟨position, used ++ rest⟩ = .ok (a, ⟨position + used.length, rest⟩)) :
    Reads step L := by
  intro r a r'
  constructor
  · exact hSound r a r'
  · rintro ⟨used, hPasses, hStands⟩
    obtain ⟨hHere, hThere⟩ := hPasses.eq
    rw [hHere, hThere]
    exact hComplete used a r'.rest r.position hStands

/-- A value that is given outright is read from no octets. -/
theorem reads_pure (a : α) : Reads (fun r => .ok (a, r)) fun used b => used = [] ∧ b = a := by
  intro r b r'
  constructor
  · intro h
    obtain ⟨rfl, rfl⟩ := Prod.mk.inj (Except.ok.inj h)
    exact ⟨[], Reader.Passes.refl_iff.2 rfl, rfl, rfl⟩
  · rintro ⟨used, hPasses, rfl, rfl⟩
    rw [Reader.Passes.refl_iff.1 hPasses]

/-- A step that fails reads nothing at all. -/
theorem reads_throw (failure : Reader → Failure) :
    Reads (α := α) (fun r => .error (failure r)) fun _ _ => False := by
  intro r a r'
  constructor
  · intro h
    cases h
  · rintro ⟨used, hPasses, hNone⟩
    exact hNone.elim

/-- A step under a condition reads the value from no octets, if the condition holds. -/
theorem reads_guard (p : Prop) [Decidable p] (a : α) (failure : Reader → Failure) :
    Reads (fun r => if p then .ok (a, r) else .error (failure r))
      fun used b => p ∧ used = [] ∧ b = a := by
  by_cases hp : p
  · simp only [hp, if_true, true_and]
    exact reads_pure a
  · simp only [hp, if_false, false_and]
    exact reads_throw failure

/-- **One step after another reads one language behind another.** -/
theorem reads_bind {x : Step α} {f : Nat → α → Step β} {L : Language α} {M : α → Language β}
    (hx : Reads x L) (hf : ∀ n a, Reads (f n a) (M a)) :
    Reads (fun r => x r >>= fun p => f r.position p.1 p.2) (L.andThen M) := by
  intro r b r'
  rw [bind_eq_ok]
  constructor
  · -- What is read splits where the first step stops.
    rintro ⟨⟨a, between⟩, hFirst, hSecond⟩
    obtain ⟨front, hFront, ha⟩ := (hx r a between).1 hFirst
    obtain ⟨back, hBack, hb⟩ := (hf r.position a between b r').1 hSecond
    exact ⟨front ++ back, hFront.trans hBack, front, back, a, rfl, ha, hb⟩
  · rintro ⟨_, hPasses, front, back, a, rfl, ha, hb⟩
    obtain ⟨between, hFront, hBack⟩ := hPasses.split
    exact ⟨(a, between), (hx r a between).2 ⟨front, hFront, ha⟩,
      (hf r.position a between b r').2 ⟨back, hBack, hb⟩⟩

/-! ## §3. Values. -/

/-- Reading an octet. -/
theorem reads_u8 : Reads (value Reader.u8) fun used b => used = [b] := by
  refine .of_octets ?_ ?_
  · intro r b r' h
    have hPasses := Reader.passes_u8 (value_eq_ok.1 h)
    have hOctets : (Datum.u8 b).octets = [b] := by
      simp [Datum.octets, littleEndian]
    exact ⟨[b], hOctets ▸ hPasses, rfl⟩
  · rintro _ b rest position rfl
    exact value_u8 b rest position

/-- Reading a number of two octets. -/
theorem reads_u16 : Reads (value Reader.u16) fun used n => used = littleEndian 2 n.toNat := by
  refine .of_octets ?_ ?_
  · intro r n r' h
    exact ⟨_, Reader.passes_u16 (value_eq_ok.1 h), rfl⟩
  · rintro _ n rest position rfl
    rw [littleEndian_length]
    exact value_u16 n rest position

/-- Reading a number of four octets. -/
theorem reads_u32 : Reads (value Reader.u32) fun used n => used = littleEndian 4 n.toNat := by
  refine .of_octets ?_ ?_
  · intro r n r' h
    exact ⟨_, Reader.passes_u32 (value_eq_ok.1 h), rfl⟩
  · rintro _ n rest position rfl
    rw [littleEndian_length]
    exact value_u32 n rest position

/-- Reading a datum reads what the datum is written as, if it fits its format. -/
theorem reads_datum (f : Format) : Reads (value (Reader.datum f))
    fun used d => (d.format = f ∧ d.fits = true) ∧ used = d.octets := by
  refine .of_octets ?_ ?_
  · intro r d r' h
    obtain ⟨hPasses, hFits⟩ := Reader.passes_datum (value_eq_ok.1 h)
    exact ⟨d.octets, hPasses, hFits, rfl⟩
  · rintro _ d rest position ⟨⟨rfl, hFits⟩, rfl⟩
    exact value_datum d hFits rest position

/-- Reading the data of a field reads them one after another. -/
theorem reads_readData (fs : List Format) : Reads (readData fs)
    fun used ds => (ds.map Datum.format = fs ∧ ds.all Datum.fits = true)
      ∧ used = ds.flatMap Datum.octets := by
  induction fs with
  | nil =>
    refine (reads_pure []).congr ?_
    intro used ds
    rw [List.map_eq_nil_iff]
    constructor
    · rintro ⟨rfl, rfl⟩
      exact ⟨⟨rfl, rfl⟩, rfl⟩
    · rintro ⟨⟨rfl, _⟩, rfl⟩
      exact ⟨rfl, rfl⟩
  | cons f fs ih =>
    -- One datum and then the others, as the reader has it.
    have hStep := reads_bind (f := fun _ d r => readData fs r >>= fun p => .ok (d :: p.1, p.2))
      (reads_datum f) fun _ d => reads_bind (f := fun _ ds r => .ok (d :: ds, r)) ih
        fun _ ds => reads_pure (d :: ds)
    refine hStep.congr ?_
    intro used ds
    constructor
    · rintro ⟨_, _, d, rfl, ⟨⟨rfl, hFits⟩, rfl⟩, _, _, ds', rfl, ⟨⟨rfl, hAll⟩, rfl⟩, rfl, rfl⟩
      refine ⟨⟨rfl, ?_⟩, ?_⟩
      · rw [List.all_cons, hFits, hAll]
        rfl
      · rw [List.flatMap_cons, List.append_nil]
    · rintro ⟨⟨hFormats, hAll⟩, rfl⟩
      obtain ⟨d, ds', rfl, rfl, hFormats'⟩ := List.map_eq_cons_iff.1 hFormats
      rw [List.all_cons, Bool.and_eq_true] at hAll
      refine ⟨d.octets, ds'.flatMap Datum.octets, d, rfl, ⟨⟨rfl, hAll.1⟩, rfl⟩,
        ds'.flatMap Datum.octets, [], ds', (List.append_nil _).symm, ⟨⟨hFormats', hAll.2⟩, rfl⟩,
        rfl, rfl⟩

/-! ## §4. Fields. -/

/-- The octets of a field, or the one that closes the fields. -/
def Mark.octets : Mark → List UInt8
  | .close closing => [closing.code]
  | .field f => f.octets

/-- Whether a field has the values that go with its name. -/
def Mark.wellFormed : Mark → Bool
  | .close _ => true
  | .field f => f.wellFormed

/-- Reading a mark reads the mark as it is written. -/
theorem reads_readMark : Reads readMark fun used m => m.wellFormed = true ∧ used = m.octets := by
  refine .of_octets ?_ ?_
  · intro r m r' h
    obtain ⟨⟨code, between⟩, hCode, hAfter⟩ := bind_eq_ok.1 h
    obtain ⟨_, hFront, rfl⟩ := (reads_u8 r code between).1 hCode
    dsimp only at hAfter
    -- The octet ends the record, announces contents, or is the tag of a field.
    split_ifs at hAfter with hEnd hContents
    · obtain ⟨rfl, rfl⟩ := Prod.mk.inj (Except.ok.inj hAfter)
      exact ⟨[code], hFront, rfl, by rw [hEnd]; rfl⟩
    · obtain ⟨rfl, rfl⟩ := Prod.mk.inj (Except.ok.inj hAfter)
      exact ⟨[code], hFront, rfl, by rw [hContents]; rfl⟩
    · cases hTag : Tag.ofCode? code with
      | none =>
        rw [hTag] at hAfter
        cases hAfter
      | some tag =>
        rw [hTag] at hAfter
        obtain ⟨⟨payload, last⟩, hData, hPair⟩ := bind_eq_ok.1 hAfter
        obtain ⟨rfl, rfl⟩ := Prod.mk.inj (Except.ok.inj hPair)
        obtain ⟨_, hBack, ⟨hFormats, hFits⟩, rfl⟩ := (reads_readData _ _ _ _).1 hData
        refine ⟨_, hFront.trans hBack, ?_, ?_⟩
        · show (_ == _ && _) = true
          rw [hFormats, hFits, beq_self_eq_true]
          rfl
        · rw [Tag.ofCode?_eq_some.1 hTag]
          rfl
  · rintro _ m rest position ⟨hFormed, rfl⟩
    cases m with
    | close closing => exact readMark_code closing rest position
    | field f => exact readMark_octets f hFormed rest position

/-- **Fields are read with the octet that closes them.** -/
theorem reads_readFields : Reads readFields
    fun used fields => (∀ f ∈ fields.1, f.wellFormed = true)
      ∧ used = fields.1.flatMap Field.octets ++ [fields.2.code] := by
  refine .of_octets ?_ ?_
  · intro r
    -- The fields that are left take fewer octets.
    induction hLength : r.rest.length using Nat.strong_induction_on generalizing r with
    | h length ih =>
      rintro ⟨fs, closing⟩ r' h
      rw [readFields] at h
      split at h
      next => cases h
      next closing' r₁ hMark =>
        obtain ⟨hFields, rfl⟩ := Prod.mk.inj (Except.ok.inj h)
        obtain ⟨rfl, rfl⟩ := Prod.mk.inj hFields
        obtain ⟨_, hPasses, _, rfl⟩ := (reads_readMark _ _ _).1 hMark
        exact ⟨_, hPasses, fun f hf => absurd hf List.not_mem_nil, rfl⟩
      next f r₁ hMark =>
        have hShorter := readMark_length_lt hMark
        split at h
        next => cases h
        next fs' closing' r₂ hRest =>
          obtain ⟨hFields, rfl⟩ := Prod.mk.inj (Except.ok.inj h)
          obtain ⟨rfl, rfl⟩ := Prod.mk.inj hFields
          obtain ⟨_, hFront, hFormed, rfl⟩ := (reads_readMark _ _ _).1 hMark
          obtain ⟨_, hBack, hAll, rfl⟩ := ih r₁.rest.length (by omega) r₁ rfl _ _ hRest
          refine ⟨_, hFront.trans hBack, List.forall_mem_cons.2 ⟨hFormed, hAll⟩, ?_⟩
          rw [List.flatMap_cons, List.append_assoc]
          rfl
  · rintro _ ⟨fs, closing⟩ rest position ⟨hAll, rfl⟩
    have hRead := readFields_octets fs hAll closing rest position
    rwa [List.append_assoc, List.length_append, ← Nat.add_assoc]

/-! ## §5. So many values. -/

/-- Octets for values one after another, each of the language. -/
inductive Language.Many {α : Type} (L : Language α) : Language (List α) where
  /-- No octets for no values. -/
  | nil : Many L [] []
  /-- Octets for the first value and for the others. -/
  | cons {front back : List UInt8} {a : α} {as : List α} (ha : L front a) (has : Many L back as) :
    Many L (front ++ back) (a :: as)

/-- **So many values are read one after another.** -/
theorem reads_times {step : Step α} {L : Language α} (h : Reads step L) (n : Nat) :
    Reads (times step n) fun used as => as.length = n ∧ L.Many used as := by
  induction n with
  | zero =>
    refine (reads_pure []).congr ?_
    intro used as
    rw [List.length_eq_zero_iff]
    constructor
    · rintro ⟨rfl, rfl⟩
      exact ⟨rfl, .nil⟩
    · rintro ⟨rfl, hMany⟩
      cases hMany
      exact ⟨rfl, rfl⟩
  | succ n ih =>
    -- The first value is read, and then as many as are left.
    have hStep := reads_bind (f := fun _ a r => times step n r >>= fun p => .ok (a :: p.1, p.2)) h
      fun _ a => reads_bind (f := fun _ as r => .ok (a :: as, r)) ih fun _ as => reads_pure (a :: as)
    refine hStep.congr ?_
    intro used as
    constructor
    · rintro ⟨front, _, a, rfl, ha, back, _, as', rfl, ⟨hLength, hMany⟩, rfl, rfl⟩
      rw [List.append_nil]
      exact ⟨congrArg (· + 1) hLength, .cons ha hMany⟩
    · rintro ⟨hLength, hMany⟩
      cases hMany with
      | nil => cases hLength
      | @cons front back a as' ha has =>
        exact ⟨front, back, a, rfl, ha, back, [], as', (List.append_nil _).symm,
          ⟨Nat.succ.inj hLength, has⟩, rfl, rfl⟩

end Record

end Homestead
