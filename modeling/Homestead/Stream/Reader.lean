/-
  Homestead.Stream.Reader
  ───────────────────────
  **A CURSOR OVER OCTETS.**

  A reader is what is left of a run of octets and the number of octets that
  have been passed.  A read either yields a value and the reader behind it,
  or nothing; there is no reader in between, so a failed read cannot move
  the cursor.
-/

namespace Homestead.Stream

/-! ## §1. Little-endian numbers. -/

/-- The number whose octets are given, least first. -/
def ofLittleEndian : List UInt8 → Nat
  | [] => 0
  | b :: bs => b.toNat + 256 * ofLittleEndian bs

/-- The lowest `width` octets of a number, least first. -/
def littleEndian : Nat → Nat → List UInt8
  | 0, _ => []
  | width + 1, n => UInt8.ofNat n :: littleEndian width (n / 256)

/-- A number takes as many octets as its width. -/
theorem littleEndian_length (width n : Nat) : (littleEndian width n).length = width := by
  induction width generalizing n with
  | zero => rfl
  | succ width ih => simp [littleEndian, ih]

/-- How many numbers so many octets can hold. -/
def capacity : Nat → Nat
  | 0 => 1
  | width + 1 => 256 * capacity width

/-- A number that is written and read is what the width keeps of it. -/
theorem ofLittleEndian_littleEndian (width n : Nat) :
    ofLittleEndian (littleEndian width n) = n % capacity width := by
  induction width generalizing n with
  | zero => simp [littleEndian, ofLittleEndian, capacity, Nat.mod_one]
  | succ width ih =>
    have split : n % (256 * capacity width) = n % 256 + 256 * (n / 256 % capacity width) :=
      Nat.mod_mul
    simp [littleEndian, ofLittleEndian, capacity, ih, split]

/-- Octets stand for a number within the capacity of their width. -/
theorem ofLittleEndian_lt (bs : List UInt8) : ofLittleEndian bs < capacity bs.length := by
  induction bs with
  | nil => simp [ofLittleEndian, capacity]
  | cons b bs ih =>
    have := b.toNat_lt
    simp only [ofLittleEndian, List.length_cons, capacity]
    omega

/-! ## §2. The cursor. -/

/-- A run of octets that is being read. -/
structure Reader where
  /-- How many octets have been passed. -/
  position : Nat
  /-- The octets still to come. -/
  rest : List UInt8
  deriving DecidableEq

namespace Reader

/-- The reader at the start of a run of octets. -/
def ofOctets (octets : List UInt8) : Reader :=
  ⟨0, octets⟩

/-- The number of octets still to come. -/
def remaining (r : Reader) : Nat :=
  r.rest.length

/-- Splits off the first `n` octets, if there are as many. -/
def splitExactly : Nat → List UInt8 → Option (List UInt8 × List UInt8)
  | 0, bs => some ([], bs)
  | _ + 1, [] => none
  | n + 1, b :: bs => (splitExactly n bs).map fun (front, rest) => (b :: front, rest)

/-- Octets are split just where there are enough of them. -/
theorem splitExactly_eq_some {n : Nat} {bs front rest : List UInt8} :
    splitExactly n bs = some (front, rest) ↔ bs = front ++ rest ∧ front.length = n := by
  -- Octet by octet, as the definition does it.
  induction n generalizing bs front with
  | zero =>
    cases front <;> simp [splitExactly, eq_comm]
  | succ n ih =>
    cases bs with
    | nil => cases front <;> simp [splitExactly]
    | cons b bs =>
      cases front with
      | nil => simp [splitExactly]
      | cons c front =>
        simp only [splitExactly, Option.map_eq_some_iff, Prod.mk.injEq, List.cons.injEq,
          Prod.exists, List.cons_append, List.length_cons, Nat.add_right_cancel_iff]
        constructor
        · rintro ⟨f, t, h, ⟨rfl, rfl⟩, rfl⟩
          have := ih.1 h
          exact ⟨⟨rfl, this.1⟩, this.2⟩
        · rintro ⟨⟨rfl, rfl⟩, rfl⟩
          exact ⟨front, rest, ih.2 ⟨rfl, rfl⟩, ⟨rfl, rfl⟩, rfl⟩

/-- Reads `n` octets. -/
def take (n : Nat) (r : Reader) : Option (List UInt8 × Reader) :=
  (splitExactly n r.rest).map fun (front, rest) => (front, ⟨r.position + n, rest⟩)

/-- Reads a number of `width` octets. -/
def number (width : Nat) (r : Reader) : Option (Nat × Reader) :=
  (r.take width).map fun (octets, r) => (ofLittleEndian octets, r)

/-- Reads one octet. -/
def u8 (r : Reader) : Option (UInt8 × Reader) :=
  (r.number 1).map fun (n, r) => (UInt8.ofNat n, r)

/-- Reads an unsigned number of two octets. -/
def u16 (r : Reader) : Option (UInt16 × Reader) :=
  (r.number 2).map fun (n, r) => (UInt16.ofNat n, r)

/-- Reads an unsigned number of four octets. -/
def u32 (r : Reader) : Option (UInt32 × Reader) :=
  (r.number 4).map fun (n, r) => (UInt32.ofNat n, r)

/-- Reads a signed number of four octets, in two's complement. -/
def i32 (r : Reader) : Option (Int32 × Reader) :=
  r.u32.map fun (n, r) => (n.toInt32, r)

/-- Reads a run of octets that its length, a number of two octets, stands before. -/
def block (r : Reader) : Option (List UInt8 × Reader) :=
  (r.number 2).bind fun (n, r) => r.take n

/-! ## §3. What a read passes. -/

/-- Going from `r` to `r'` passes the octets `used` and nothing else. -/
structure Passes (r r' : Reader) (used : List UInt8) : Prop where
  /-- The octets passed stood in front of the rest. -/
  rest_eq : r.rest = used ++ r'.rest
  /-- The position moves by as many octets. -/
  position_eq : r'.position = r.position + used.length

/-- What is left becomes shorter by what is passed. -/
theorem Passes.length_eq {r r' : Reader} {used : List UInt8} (h : Passes r r' used) :
    r.rest.length = used.length + r'.rest.length := by
  rw [h.rest_eq, List.length_append]

/-- Passing some octets and then others is passing them all. -/
theorem Passes.trans {r r' r'' : Reader} {used used' : List UInt8} (h : Passes r r' used)
    (h' : Passes r' r'' used') : Passes r r'' (used ++ used') where
  rest_eq := by rw [h.rest_eq, h'.rest_eq, List.append_assoc]
  position_eq := by rw [h'.position_eq, h.position_eq, List.length_append, Nat.add_assoc]

/-- Octets are taken exactly by passing that many. -/
theorem take_eq_some {n : Nat} {r r' : Reader} {octets : List UInt8} :
    r.take n = some (octets, r') ↔ Passes r r' octets ∧ octets.length = n := by
  obtain ⟨position, rest⟩ := r
  obtain ⟨position', rest'⟩ := r'
  simp only [take, Option.map_eq_some_iff, Prod.exists, Prod.mk.injEq, Reader.mk.injEq,
    splitExactly_eq_some]
  constructor
  · rintro ⟨front, tail, ⟨rfl, rfl⟩, rfl, rfl, rfl⟩
    exact ⟨⟨rfl, rfl⟩, rfl⟩
  · rintro ⟨⟨hr, hp⟩, rfl⟩
    exact ⟨octets, rest', ⟨hr, rfl⟩, rfl, hp.symm, rfl⟩

/-- A number that is read is what its octets stand for. -/
theorem number_eq_some {width n : Nat} {r r' : Reader} (h : r.number width = some (n, r')) :
    ∃ octets, Passes r r' octets ∧ octets.length = width ∧ n = ofLittleEndian octets := by
  simp only [number, Option.map_eq_some_iff, Prod.exists, Prod.mk.injEq] at h
  obtain ⟨octets, _, hTake, rfl, rfl⟩ := h
  obtain ⟨hPasses, hLength⟩ := take_eq_some.1 hTake
  exact ⟨octets, hPasses, hLength, rfl⟩

/-- Reading an octet passes one. -/
theorem u8_passes {n : UInt8} {r r' : Reader} (h : r.u8 = some (n, r')) :
    ∃ octets, Passes r r' octets ∧ octets.length = 1 := by
  simp only [u8, Option.map_eq_some_iff, Prod.exists, Prod.mk.injEq] at h
  obtain ⟨_, _, hNumber, _, rfl⟩ := h
  obtain ⟨octets, hPasses, hLength, _⟩ := number_eq_some hNumber
  exact ⟨octets, hPasses, hLength⟩

/-- Reading a number of two octets passes two. -/
theorem u16_passes {n : UInt16} {r r' : Reader} (h : r.u16 = some (n, r')) :
    ∃ octets, Passes r r' octets ∧ octets.length = 2 := by
  simp only [u16, Option.map_eq_some_iff, Prod.exists, Prod.mk.injEq] at h
  obtain ⟨_, _, hNumber, _, rfl⟩ := h
  obtain ⟨octets, hPasses, hLength, _⟩ := number_eq_some hNumber
  exact ⟨octets, hPasses, hLength⟩

/-- Reading a number of four octets passes four. -/
theorem u32_passes {n : UInt32} {r r' : Reader} (h : r.u32 = some (n, r')) :
    ∃ octets, Passes r r' octets ∧ octets.length = 4 := by
  simp only [u32, Option.map_eq_some_iff, Prod.exists, Prod.mk.injEq] at h
  obtain ⟨_, _, hNumber, _, rfl⟩ := h
  obtain ⟨octets, hPasses, hLength, _⟩ := number_eq_some hNumber
  exact ⟨octets, hPasses, hLength⟩

/-- Reading a signed number passes four. -/
theorem i32_passes {n : Int32} {r r' : Reader} (h : r.i32 = some (n, r')) :
    ∃ octets, Passes r r' octets ∧ octets.length = 4 := by
  simp only [i32, Option.map_eq_some_iff, Prod.exists, Prod.mk.injEq] at h
  obtain ⟨_, _, hNumber, _, rfl⟩ := h
  exact u32_passes hNumber

/-- Reading a block passes its length and its octets. -/
theorem block_passes {octets : List UInt8} {r r' : Reader} (h : r.block = some (octets, r')) :
    ∃ length, Passes r r' (length ++ octets) ∧ length.length = 2 := by
  simp only [block, Option.bind_eq_some_iff, Prod.exists] at h
  obtain ⟨_, _, hNumber, hTake⟩ := h
  obtain ⟨length, hPasses, hLength, _⟩ := number_eq_some hNumber
  exact ⟨length, hPasses.trans (take_eq_some.1 hTake).1, hLength⟩

end Reader

end Homestead.Stream
