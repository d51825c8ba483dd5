/-
  Homestead.Stream.Datum
  ──────────────────────
  **THE VALUES THAT A STREAM IS MADE OF.**

  A datum is a number of fixed width, a run of octets with its length in
  front, or a run of octets as it is.  Its format says how to read it back:
  reading the octets of a datum in its format gives the datum and stops
  right behind it.
-/
import Homestead.Stream.Reader
import Homestead.Text.Utf8

namespace Homestead.Stream

/-! ## §1. Formats and values. -/

/-- How a value is laid out. -/
inductive Format where
  /-- One octet, unsigned. -/
  | u8
  /-- Two octets, unsigned. -/
  | u16
  /-- Four octets, unsigned. -/
  | u32
  /-- Four octets, signed. -/
  | i32
  /-- A length of two octets, then as many octets. -/
  | block
  /-- So many octets. -/
  | raw (size : Nat)
  deriving DecidableEq

/-- A value in a stream. -/
inductive Datum where
  /-- An unsigned number of one octet. -/
  | u8 (n : UInt8)
  /-- An unsigned number of two octets. -/
  | u16 (n : UInt16)
  /-- An unsigned number of four octets. -/
  | u32 (n : UInt32)
  /-- A signed number of four octets. -/
  | i32 (n : Int32)
  /-- Octets with their length in front. -/
  | block (octets : List UInt8)
  /-- Octets as they are. -/
  | raw (octets : List UInt8)
  deriving DecidableEq

namespace Datum

/-- The layout that reads the value back. -/
def format : Datum → Format
  | u8 _ => .u8
  | u16 _ => .u16
  | u32 _ => .u32
  | i32 _ => .i32
  | block _ => .block
  | raw octets => .raw octets.length

/-- Whether the value can be laid out: a block has a length of two octets. -/
def fits : Datum → Bool
  | block octets => octets.length < 65536
  | _ => true

/-- The octets of a value. -/
def octets : Datum → List UInt8
  | u8 n => littleEndian 1 n.toNat
  | u16 n => littleEndian 2 n.toNat
  | u32 n => littleEndian 4 n.toNat
  | i32 n => littleEndian 4 n.toUInt32.toNat
  | block octets => littleEndian 2 octets.length ++ octets
  | raw octets => octets

/-- A text as a block: the longest run of whole characters that fits the length. -/
def text (s : String) : Datum :=
  block (Text.utf8Octets (Text.clip 65535 s.toList))

end Datum

/-! ## §2. Reading a value. -/

/-- Reads a value of the given layout. -/
def Reader.datum (f : Format) (r : Reader) : Option (Datum × Reader) :=
  match f with
  | .u8 => r.u8.map fun (n, r) => (.u8 n, r)
  | .u16 => r.u16.map fun (n, r) => (.u16 n, r)
  | .u32 => r.u32.map fun (n, r) => (.u32 n, r)
  | .i32 => r.i32.map fun (n, r) => (.i32 n, r)
  | .block => r.block.map fun (octets, r) => (.block octets, r)
  | .raw size => (r.take size).map fun (octets, r) => (.raw octets, r)

theorem Reader.datum_passes {f : Format} {d : Datum} {r r' : Reader}
    (h : r.datum f = some (d, r')) : ∃ octets, Reader.Passes r r' octets := by
  cases f <;> simp only [Reader.datum, Option.map_eq_some_iff, Prod.exists, Prod.mk.injEq] at h <;>
    obtain ⟨_, _, hRead, _, rfl⟩ := h
  · exact (Reader.u8_passes hRead).imp fun _ h => h.1
  · exact (Reader.u16_passes hRead).imp fun _ h => h.1
  · exact (Reader.u32_passes hRead).imp fun _ h => h.1
  · exact (Reader.i32_passes hRead).imp fun _ h => h.1
  · obtain ⟨_, hPasses, _⟩ := Reader.block_passes hRead
    exact ⟨_, hPasses⟩
  · exact ⟨_, (Reader.take_eq_some.1 hRead).1⟩

end Homestead.Stream
