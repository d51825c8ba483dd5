/-
  Homestead.Proofs.Stream.Datum
  ─────────────────────────────
  **A VALUE READS BACK IN ITS FORMAT.**

  The octets of a value, followed by anything, read back in the value's
  format: the read gives the value and stops right behind it.
-/
import Homestead.Stream.Datum
import Homestead.Proofs.Text.Utf8

namespace Homestead.Stream

namespace Reader

/-- Octets that come next are taken. -/
theorem take_append (octets rest : List UInt8) (position : Nat) :
    take octets.length ⟨position, octets ++ rest⟩
      = some (octets, ⟨position + octets.length, rest⟩) :=
  take_eq_some.2 ⟨⟨rfl, rfl⟩, rfl⟩

/-- A number that fits its width is read back. -/
theorem number_littleEndian (width n : Nat) (h : n < capacity width) (rest : List UInt8)
    (position : Nat) :
    number width ⟨position, littleEndian width n ++ rest⟩
      = some (n, ⟨position + width, rest⟩) := by
  have hTake := take_append (littleEndian width n) rest position
  rw [littleEndian_length] at hTake
  rw [number, hTake]
  show some (ofLittleEndian (littleEndian width n), _) = _
  rw [ofLittleEndian_littleEndian, Nat.mod_eq_of_lt h]

theorem u8_octets (n : UInt8) (rest : List UInt8) (position : Nat) :
    u8 ⟨position, (Datum.u8 n).octets ++ rest⟩ = some (n, ⟨position + 1, rest⟩) := by
  show (number 1 ⟨position, littleEndian 1 n.toNat ++ rest⟩).map _ = _
  rw [number_littleEndian 1 n.toNat n.toNat_lt]
  simp

theorem u16_octets (n : UInt16) (rest : List UInt8) (position : Nat) :
    u16 ⟨position, (Datum.u16 n).octets ++ rest⟩ = some (n, ⟨position + 2, rest⟩) := by
  show (number 2 ⟨position, littleEndian 2 n.toNat ++ rest⟩).map _ = _
  rw [number_littleEndian 2 n.toNat n.toNat_lt]
  simp

theorem u32_octets (n : UInt32) (rest : List UInt8) (position : Nat) :
    u32 ⟨position, (Datum.u32 n).octets ++ rest⟩ = some (n, ⟨position + 4, rest⟩) := by
  show (number 4 ⟨position, littleEndian 4 n.toNat ++ rest⟩).map _ = _
  rw [number_littleEndian 4 n.toNat n.toNat_lt]
  simp

/-- Of a number that is too large, four octets give what they have room for. -/
theorem u32_littleEndian (n : Nat) (rest : List UInt8) (position : Nat) :
    u32 ⟨position, littleEndian 4 n ++ rest⟩ = some (UInt32.ofNat n, ⟨position + 4, rest⟩) := by
  have hTake := take_append (littleEndian 4 n) rest position
  rw [littleEndian_length] at hTake
  have hNumber : number 4 ⟨position, littleEndian 4 n ++ rest⟩
      = some (n % capacity 4, ⟨position + 4, rest⟩) := by
    rw [number, hTake, ← ofLittleEndian_littleEndian]
    rfl
  rw [u32, hNumber, Option.map_some]
  -- Both drop what lies above 32 bits.
  have hSame : UInt32.ofNat (n % capacity 4) = UInt32.ofNat n := by
    rw [← UInt32.toNat_inj, UInt32.toNat_ofNat', UInt32.toNat_ofNat']
    exact Nat.mod_mod n _
  rw [← hSame]

theorem i32_octets (n : Int32) (rest : List UInt8) (position : Nat) :
    i32 ⟨position, (Datum.i32 n).octets ++ rest⟩ = some (n, ⟨position + 4, rest⟩) := by
  show (u32 ⟨position, (Datum.u32 n.toUInt32).octets ++ rest⟩).map _ = _
  rw [u32_octets]
  simp

/-- A block that is not too long is read back. -/
theorem block_octets (octets : List UInt8) (h : octets.length < 65536) (rest : List UInt8)
    (position : Nat) :
    block ⟨position, (Datum.block octets).octets ++ rest⟩
      = some (octets, ⟨position + (Datum.block octets).octets.length, rest⟩) := by
  show (number 2 ⟨position, (littleEndian 2 octets.length ++ octets) ++ rest⟩).bind _ = _
  rw [List.append_assoc, number_littleEndian 2 octets.length h]
  show take octets.length ⟨position + 2, octets ++ rest⟩ = _
  rw [take_append, Datum.octets, List.length_append, littleEndian_length, Nat.add_assoc]

/-- **Reading a value in its format gives the value and stops right behind it.** -/
theorem datum_octets (d : Datum) (h : d.fits) (rest : List UInt8) (position : Nat) :
    datum d.format ⟨position, d.octets ++ rest⟩
      = some (d, ⟨position + d.octets.length, rest⟩) := by
  -- One case for each format, by the read that it is made of.
  cases d with
  | u8 n =>
    rw [Datum.format, datum, u8_octets]
    rfl
  | u16 n =>
    rw [Datum.format, datum, u16_octets]
    rfl
  | u32 n =>
    rw [Datum.format, datum, u32_octets]
    rfl
  | i32 n =>
    rw [Datum.format, datum, i32_octets]
    rfl
  | block octets =>
    rw [Datum.format, datum, block_octets octets (by simpa [Datum.fits] using h)]
    rfl
  | raw octets =>
    rw [Datum.format, datum, Datum.octets, take_append]
    rfl

end Reader

/-- A text is cut before it is laid out, so that its length fits. -/
theorem Datum.text_fits (s : String) : (Datum.text s).fits = true := by
  have h := (Text.clip_isLongestFit 65535 s.toList).fits
  show decide (_ < 65536) = true
  rw [decide_eq_true_eq]
  omega

end Homestead.Stream
