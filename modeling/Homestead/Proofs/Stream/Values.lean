/-
  Homestead.Proofs.Stream.Values
  ──────────────────────────────
  **WHAT IS WRITTEN READS BACK, ONE VALUE BEHIND ANOTHER.**

  Values are written one behind the other into a run of octets that grows.
  Nothing but their order tells where one ends and the next one begins: a
  text says how long it is, and the octets as they are have to be asked for
  by their number.  Reading in the same order gives the values back and
  ends where the writing ended, whatever stands before and behind.

  A text is the one value that may come back shorter, since its length has
  only two octets.

  Main results:
    * `write_eq` — writing puts the octets of a value behind the others;
    * `values_of_next` — values that come next are read;
    * `values_write` — writing, then reading.
-/
import Homestead.Proofs.Stream.Cursor
import Homestead.Proofs.Text.Boundary
import Mathlib.Data.List.Forall2

namespace Homestead.Stream

/-! ## §1. Values. -/

/-- What can be written. -/
inductive Value where
  /-- An unsigned number of one octet. -/
  | u8 (n : UInt8)
  /-- An unsigned number of two octets. -/
  | u16 (n : UInt16)
  /-- An unsigned number of four octets. -/
  | u32 (n : UInt32)
  /-- A signed number of four octets. -/
  | i32 (n : Int32)
  /-- A text, with its length in front. -/
  | text (s : String)
  /-- Octets as they are. -/
  | raw (octets : List UInt8)
  deriving DecidableEq

/-- The value as it is laid out: a text as a block. -/
def Value.datum : Value → Datum
  | u8 n => .u8 n
  | u16 n => .u16 n
  | u32 n => .u32 n
  | i32 n => .i32 n
  | text s => .text s
  | raw octets => .raw octets

/-- The read that matches the write of the value. -/
def Value.format (v : Value) : Format :=
  v.datum.format

/-- The value that is read: a block as a text, whatever its octets are. -/
def Datum.value : Datum → Value
  | u8 n => .u8 n
  | u16 n => .u16 n
  | u32 n => .u32 n
  | i32 n => .i32 n
  | block octets => .text (Text.ofOctets octets)
  | raw octets => .raw octets

/-- The number of octets that the value takes. -/
def Datum.size : Datum → Nat
  | u8 _ => 1
  | u16 _ => 2
  | u32 _ => 4
  | i32 _ => 4
  | block octets => 2 + octets.length
  | raw octets => octets.length

/-- A datum is written in as many octets as its size. -/
theorem Datum.octets_length (d : Datum) : d.octets.length = d.size := by
  cases d with
  | block octets => rw [Datum.octets, size, List.length_append, littleEndian_length]
  | raw octets => rfl
  | _ => exact littleEndian_length _ _

/-- What comes back of a value: of a text the longest run of whole characters whose octets fit
the length, of any other value the value. -/
def Value.ReadsAs : Value → Value → Prop
  | text s, w => ∃ t, w = text t ∧ Text.IsLongestFit 65535 s.toList t.toList
  | v, w => w = v

/-- A value is read as its datum is. -/
theorem Value.readsAs (v : Value) : v.ReadsAs v.datum.value := by
  cases v with
  | text s =>
    refine ⟨String.ofList (Text.clip 65535 s.toList), ?_, ?_⟩
    · rw [datum, Datum.text, Datum.value, Text.ofOctets_utf8Octets]
    · rw [String.toList_ofList]
      exact Text.clip_isLongestFit 65535 s.toList
  | _ => rfl

/-- The datum of a value fits its format. -/
theorem Value.datum_fits (v : Value) : v.datum.fits = true := by
  cases v with
  | text s => exact Datum.text_fits s
  | _ => rfl

/-! ## §2. Writing. -/

/-- Writes a value behind what has been written.  A text is cut at the limit, or at the last place
before it where a character starts. -/
def write (written : List UInt8) : Value → List UInt8
  | .u8 n => written ++ [n]
  | .u16 n => written ++ littleEndian 2 n.toNat
  | .u32 n => written ++ littleEndian 4 n.toNat
  | .i32 n => written ++ littleEndian 4 n.toUInt32.toNat
  | .text s =>
    let octets := Text.utf8Octets s.toList
    let kept := octets.take (Text.backOff octets (min octets.length 65535))
    written ++ littleEndian 2 kept.length ++ kept
  | .raw octets => written ++ octets

/-- **Writing puts the octets of the value behind what has been written.** -/
theorem write_eq (written : List UInt8) (v : Value) : write written v = written ++ v.datum.octets := by
  cases v with
  | u8 n => simp [write, Value.datum, Datum.octets, littleEndian]
  | text s =>
    rw [write, Text.take_backOff, Value.datum, Datum.text, Datum.octets, List.append_assoc]
  | _ => rfl

/-- Values are written one behind the other. -/
theorem foldl_write (written : List UInt8) (vs : List Value) :
    vs.foldl write written = written ++ vs.flatMap fun v => v.datum.octets := by
  induction vs generalizing written with
  | nil => rw [List.foldl_nil, List.flatMap_nil, List.append_nil]
  | cons v vs ih => rw [List.foldl_cons, ih, write_eq, List.flatMap_cons, List.append_assoc]

/-! ## §3. Reading. -/

namespace Cursor

/-- Reads a value. -/
def value (f : Format) (c : Cursor) : Option Value × Cursor :=
  (c.datum f).map (Option.map Datum.value) id

/-- Reads values one after another, up to the first read that fails. -/
def values : List Format → Cursor → Option (List Value) × Cursor
  | [], c => (some [], c)
  | f :: fs, c =>
    match c.value f with
    | (none, c) => (none, c)
    | (some v, c) => (values fs c).map (Option.map (v :: ·)) id

/-- **Values that come next are read, and the cursor goes behind them.** -/
theorem values_of_next (vs : List Value) (rest : List UInt8) (c : Cursor)
    (hNext : c.octets.drop c.position = (vs.flatMap fun v => v.datum.octets) ++ rest) :
    c.values (vs.map Value.format)
      = (some (vs.map fun v => v.datum.value),
          { c with position := c.position + (vs.flatMap fun v => v.datum.octets).length }) := by
  induction vs generalizing c with
  | nil => rfl
  | cons v vs ih =>
    rw [List.flatMap_cons, List.append_assoc] at hNext
    have hRead := datum_of_next v.datum_fits hNext
    -- Behind the first value stand the others.
    have hBehind : c.octets.drop (c.position + v.datum.octets.length)
        = (vs.flatMap fun v => v.datum.octets) ++ rest := by
      rw [← List.drop_drop, hNext, List.drop_left]
    rw [List.map_cons, values, value, Value.format, hRead]
    show (values (vs.map Value.format) { c with position := _ }).map _ id = _
    rw [ih { c with position := c.position + v.datum.octets.length } hBehind]
    simp [Nat.add_assoc]

/-- **Values that were written are read, and the cursor stands where the writing ended.** -/
theorem values_write (before : List UInt8) (vs : List Value) (rest : List UInt8) :
    values (vs.map Value.format) ⟨vs.foldl write before ++ rest, before.length⟩
      = (some (vs.map fun v => v.datum.value),
          ⟨vs.foldl write before ++ rest, (vs.foldl write before).length⟩) := by
  have hNext : (vs.foldl write before ++ rest).drop before.length
      = (vs.flatMap fun v => v.datum.octets) ++ rest := by
    rw [foldl_write, List.append_assoc, List.drop_left]
  have hRead := values_of_next vs rest ⟨vs.foldl write before ++ rest, before.length⟩ hNext
  have hLength : (vs.foldl write before).length
      = before.length + (vs.flatMap fun v => v.datum.octets).length := by
    rw [foldl_write, List.length_append]
  rw [hRead, hLength]

/-- A value is read as it is laid out, or nothing happens. -/
theorem value_cases (f : Format) (c : Cursor) :
    c.value f = (none, c)
      ∨ ∃ (d : Datum) (c' : Cursor), c.value f = (some d.value, c') ∧ Passes c c' d.octets ∧ d.format = f
          ∧ d.fits = true := by
  rw [value]
  obtain hRead | ⟨d, c', hRead, hPasses⟩ := datum_cases f c
  · rw [hRead]
    exact .inl rfl
  · rw [hRead]
    exact .inr ⟨d, c', rfl, hPasses⟩

/-! ## §4. Writing and reading. -/

/-- **Reads undo writes.**  Values that are written behind anything, and followed by anything, are
read back in their order, each text as the longest run of whole characters that fits its length,
and the cursor ends where the writing ended.  A read that fails does not move the cursor; one that
gives a value passes just its octets; a cursor within its octets stays within them.  What is read
is what a reader at the place of the cursor reads, and what is written are the octets of the
values as they are laid out. -/
theorem reads_undo_writes :
    (∀ (before : List UInt8) (vs : List Value) (rest : List UInt8), ∃ ws,
        values (vs.map Value.format) ⟨vs.foldl write before ++ rest, before.length⟩
            = (some ws, ⟨vs.foldl write before ++ rest, (vs.foldl write before).length⟩)
          ∧ List.Forall₂ Value.ReadsAs vs ws)
      ∧ (∀ (c : Cursor) (f : Format), c.value f = (none, c)
          ∨ ∃ (d : Datum) (c' : Cursor), c.value f = (some d.value, c') ∧ d.format = f
            ∧ c'.octets = c.octets ∧ c'.position = c.position + d.size
            ∧ c.octets.drop c.position = d.octets ++ c.octets.drop c'.position)
      ∧ (∀ (c : Cursor) (f : Format), c.position ≤ c.octets.length →
          (c.value f).2.position ≤ c.octets.length)
      ∧ (∀ (c : Cursor) (f : Format), c.datum f = c.follow (c.reader.datum f))
      ∧ ∀ (before : List UInt8) (vs : List Value),
          vs.foldl write before = before ++ vs.flatMap fun v => v.datum.octets := by
  refine ⟨?written, ?one, ?inside, fun c f => datum_eq f c, foldl_write⟩
  case written =>
    intro before vs rest
    refine ⟨_, values_write before vs rest, ?_⟩
    rw [List.forall₂_map_right_iff, List.forall₂_same]
    exact fun v _ => v.readsAs
  case one =>
    intro c f
    refine (value_cases f c).imp_right ?_
    rintro ⟨d, c', hRead, hPasses, hFormat, _⟩
    exact ⟨d, c', hRead, hFormat, hPasses.octets_eq, d.octets_length ▸ hPasses.position_eq,
      hPasses.drop_eq⟩
  case inside =>
    intro c f hInside
    obtain hRead | ⟨d, c', hRead, hPasses, _⟩ := value_cases f c
    · rw [hRead]
      exact hInside
    · -- The octets that were passed were there.
      rw [hRead, ← hPasses.octets_eq]
      exact hPasses.position_le hInside

/-- A text of ten octets, of which three are there. -/
def cutText : List UInt8 :=
  [10, 0, 97, 98, 99]

/-- The cursor has passed the length of the text when it finds out that there is too little, and is
back at the start.  Four octets can be read from there. -/
theorem reads_undo_writes_cutText :
    0 ≤ cutText.length ∧ (value .block ⟨cutText, 0⟩).2.position ≤ cutText.length
      ∧ value .block ⟨cutText, 0⟩ = (none, ⟨cutText, 0⟩)
      ∧ value .u32 ⟨cutText, 0⟩ = (some (.u32 0x6261000A), ⟨cutText, 4⟩) :=
  ⟨by decide, reads_undo_writes.2.2.1 ⟨cutText, 0⟩ .block (by decide), by decide, by decide⟩

end Cursor

end Homestead.Stream
