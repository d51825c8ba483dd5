/-
  Homestead.Proofs.Stream.Cursor
  ──────────────────────────────
  **A CURSOR THAT MOVES.**

  The reader of this library gives a new reader with every value, so that a
  failed read has none to give.  A cursor over fixed octets moves as it
  reads, and has to stay where it is when a read fails.  For a block that
  is some work: its length has been read, and the cursor has moved, before
  the octets turn out to be missing.

  Both are the same: every read of the cursor is the read of the reader
  that stands at its place, and the cursor follows if that gives a value.

  Main results:
    * `datum_eq` — a read of the cursor is a read of the reader;
    * `datum_cases`, `datum_eq_none` — what one read does to the cursor, and
      when it fails;
    * `attempts_passes` — what many reads do, some of which may fail.
-/
import Homestead.Proofs.Record.Reads

namespace Homestead.Stream

/-! ## §1. The cursor. -/

/-- A place in a run of octets. -/
structure Cursor where
  /-- All of the octets. -/
  octets : List UInt8
  /-- How many of them have been passed. -/
  position : Nat
  deriving DecidableEq

namespace Cursor

/-- The number of octets still to come. -/
def remaining (c : Cursor) : Nat :=
  c.octets.length - c.position

/-- Reads `n` octets. -/
def take (n : Nat) (c : Cursor) : Option (List UInt8) × Cursor :=
  if c.remaining < n then (none, c)
  else (some ((c.octets.drop c.position).take n), { c with position := c.position + n })

/-- Reads one octet. -/
def u8 (c : Cursor) : Option UInt8 × Cursor :=
  match c.octets[c.position]? with
  | none => (none, c)
  | some b => (some b, { c with position := c.position + 1 })

/-- Reads a number of `width` octets. -/
def number (width : Nat) (c : Cursor) : Option Nat × Cursor :=
  match c.take width with
  | (none, c) => (none, c)
  | (some octets, c) => (some (ofLittleEndian octets), c)

/-- Reads a run of octets that its length stands before, and goes back to the length if there are
too few octets. -/
def block (c : Cursor) : Option (List UInt8) × Cursor :=
  let start := c.position
  match c.number 2 with
  | (none, c) => (none, c)
  | (some length, c) =>
    match c.take length with
    | (some octets, c) => (some octets, c)
    | (none, c) => (none, { c with position := start })

/-- Reads a value of the given layout. -/
def datum (f : Format) (c : Cursor) : Option Datum × Cursor :=
  match f with
  | .u8 => c.u8.map (Option.map .u8) id
  | .u16 => (c.number 2).map (Option.map fun n => .u16 (UInt16.ofNat n)) id
  | .u32 => (c.number 4).map (Option.map fun n => .u32 (UInt32.ofNat n)) id
  | .i32 => (c.number 4).map (Option.map fun n => .i32 (UInt32.ofNat n).toInt32) id
  | .block => c.block.map (Option.map .block) id
  | .raw size => (c.take size).map (Option.map .raw) id

/-! ## §2. The reader at the cursor. -/

/-- The reader that stands where the cursor stands. -/
def reader (c : Cursor) : Reader :=
  ⟨c.position, c.octets.drop c.position⟩

/-- What the cursor gives if a reader at its place has given so much: it follows the reader. -/
def follow {α : Type} (c : Cursor) : Option (α × Reader) → Option α × Cursor
  | none => (none, c)
  | some (a, r) => (some a, { c with position := r.position })

/-- Rewriting a result leaves where the cursor goes. -/
theorem follow_map {α β : Type} (c : Cursor) (read : Option (α × Reader)) (g : α → β) :
    c.follow (read.map fun (a, r) => (g a, r)) = (c.follow read).map (Option.map g) id := by
  cases read <;> rfl

/-- Octets are taken from where the cursor stands, if there are enough. -/
theorem reader_take (n : Nat) (c : Cursor) :
    c.reader.take n = if c.remaining < n then none
      else some ((c.octets.drop c.position).take n, reader { c with position := c.position + n }) := by
  have hRest : (c.octets.drop c.position).length = c.remaining := List.length_drop
  split
  -- If something were taken, there would be enough octets for it.
  next hFew =>
    refine Option.eq_none_iff_forall_ne_some.2 fun ⟨octets, r⟩ h => ?_
    obtain ⟨hPasses, hLength⟩ := Reader.take_eq_some.1 h
    have hSum : (c.octets.drop c.position).length = _ := hPasses.length_eq
    omega
  next hEnough =>
    have hLength : ((c.octets.drop c.position).take n).length = n := by
      rw [List.length_take]
      omega
    refine Reader.take_eq_some.2 ⟨⟨?_, ?_⟩, hLength⟩
    · show c.octets.drop c.position = _ ++ c.octets.drop (c.position + n)
      rw [← List.drop_drop, List.take_append_drop]
    · rw [hLength]
      rfl

/-- Taking octets moves the cursor as the reader goes. -/
theorem take_eq (n : Nat) (c : Cursor) : c.take n = c.follow (c.reader.take n) := by
  rw [take, reader_take]
  split <;> rfl

/-- Reading a number moves the cursor as the reader goes. -/
theorem number_eq (width : Nat) (c : Cursor) :
    c.number width = c.follow (c.reader.number width) := by
  rw [number, take_eq, Reader.number]
  cases c.reader.take width <;> rfl

/-- One octet is looked up at its place, and not taken as a number of one octet. -/
theorem u8_eq (c : Cursor) : c.u8 = c.follow c.reader.u8 := by
  rw [Reader.u8, Reader.number, reader_take]
  have hRest : (c.octets.drop c.position).length = c.remaining := List.length_drop
  -- At the end of the octets both give nothing.
  cases hHere : c.octets.drop c.position with
  | nil =>
    have hNone : c.octets[c.position]? = none := by
      rw [← List.head?_drop, hHere, List.head?_nil]
    rw [hHere, List.length_nil] at hRest
    rw [u8, hNone, if_pos (by omega)]
    rfl
  | cons b rest =>
    have hSome : c.octets[c.position]? = some b := by
      rw [← List.head?_drop, hHere, List.head?_cons]
    rw [hHere, List.length_cons] at hRest
    rw [u8, hSome, if_neg (by omega)]
    simp [ofLittleEndian, reader, follow]

/-- The reader that a read has given stands where the cursor goes. -/
theorem reader_of_passes {c : Cursor} {r : Reader} {used : List UInt8}
    (h : Reader.Passes c.reader r used) : reader { c with position := r.position } = r := by
  have hRest : c.octets.drop c.position = used ++ r.rest := h.rest_eq
  have hPosition : r.position = c.position + used.length := h.position_eq
  have hDrop : c.octets.drop r.position = r.rest := by
    rw [hPosition, ← List.drop_drop, hRest, List.drop_left]
  show Reader.mk r.position (c.octets.drop r.position) = r
  rw [hDrop]

/-- **A block leaves no trace of its length, if the octets are missing.** -/
theorem block_eq (c : Cursor) : c.block = c.follow c.reader.block := by
  rw [block, number_eq, Reader.block]
  cases hNumber : c.reader.number 2 with
  | none => rfl
  | some found =>
    obtain ⟨length, r⟩ := found
    obtain ⟨octets, hPasses, _⟩ := Reader.number_eq_some hNumber
    rw [Option.bind_some]
    simp only [follow, take_eq, reader_of_passes hPasses]
    cases r.take length <;> rfl

/-- **Every read of the cursor is the read of the reader at its place.** -/
theorem datum_eq (f : Format) (c : Cursor) : c.datum f = c.follow (c.reader.datum f) := by
  -- Formats are made of two reads, and differ in how the octets are taken.
  cases f with
  | u8 =>
    rw [datum, u8_eq, ← follow_map]
    rfl
  | u16 =>
    rw [datum, number_eq, ← follow_map, Reader.datum, Reader.u16, Option.map_map]
    rfl
  | u32 =>
    rw [datum, number_eq, ← follow_map, Reader.datum, Reader.u32, Option.map_map]
    rfl
  | i32 =>
    rw [datum, number_eq, ← follow_map, Reader.datum, Reader.i32, Reader.u32, Option.map_map,
      Option.map_map]
    rfl
  | block =>
    rw [datum, block_eq, ← follow_map]
    rfl
  | raw size =>
    rw [datum, take_eq, ← follow_map]
    rfl

/-! ## §3. What reads do to the cursor. -/

/-- Going from `c` to `c'` passes the octets `used` and nothing else. -/
structure Passes (c c' : Cursor) (used : List UInt8) : Prop where
  /-- The octets themselves stay as they are. -/
  octets_eq : c'.octets = c.octets
  /-- The cursor moves by as many octets. -/
  position_eq : c'.position = c.position + used.length
  /-- The octets passed come next. -/
  drop_eq : c.octets.drop c.position = used ++ c.octets.drop c'.position

theorem Passes.refl (c : Cursor) : Passes c c [] :=
  ⟨rfl, rfl, rfl⟩

/-- Passing some octets and then others is passing them all. -/
theorem Passes.trans {c c' c'' : Cursor} {front back : List UInt8} (h : Passes c c' front)
    (h' : Passes c' c'' back) : Passes c c'' (front ++ back) where
  octets_eq := h'.octets_eq.trans h.octets_eq
  position_eq := by rw [h'.position_eq, h.position_eq, List.length_append, Nat.add_assoc]
  drop_eq := by
    have hBack := h'.drop_eq
    rw [h.octets_eq] at hBack
    rw [h.drop_eq, hBack, List.append_assoc]

/-- A cursor within its octets does not pass their end. -/
theorem Passes.position_le {c c' : Cursor} {used : List UInt8} (h : Passes c c' used)
    (hInside : c.position ≤ c.octets.length) : c'.position ≤ c'.octets.length := by
  have hLength := congrArg List.length h.drop_eq
  rw [List.length_append, List.length_drop, List.length_drop] at hLength
  rw [h.octets_eq, h.position_eq]
  rw [h.position_eq] at hLength
  omega

/-- **A read gives nothing and does nothing, or gives a value of its format and passes the octets
of that.** -/
theorem datum_cases (f : Format) (c : Cursor) :
    c.datum f = (none, c)
      ∨ ∃ d c', c.datum f = (some d, c') ∧ Passes c c' d.octets ∧ d.format = f
          ∧ d.fits = true := by
  rw [datum_eq]
  cases hRead : c.reader.datum f with
  | none => exact .inl rfl
  | some found =>
    obtain ⟨d, r⟩ := found
    obtain ⟨hPasses, hFormat, hFits⟩ := Reader.passes_datum hRead
    refine .inr ⟨d, { c with position := r.position }, rfl, ⟨rfl, hPasses.position_eq, ?_⟩,
      hFormat, hFits⟩
    -- The rest that the reader has left is what stands behind the cursor now.
    have hThere : c.octets.drop r.position = r.rest :=
      congrArg Reader.rest (reader_of_passes hPasses)
    show c.octets.drop c.position = d.octets ++ c.octets.drop r.position
    rw [hThere]
    exact hPasses.rest_eq

/-- A value whose octets come next is read, and they are passed. -/
theorem datum_of_next {d : Datum} {rest : List UInt8} {c : Cursor} (hFits : d.fits = true)
    (hNext : c.octets.drop c.position = d.octets ++ rest) :
    c.datum d.format = (some d, { c with position := c.position + d.octets.length }) := by
  have hReader : c.reader = ⟨c.position, d.octets ++ rest⟩ := by
    rw [reader, hNext]
  rw [datum_eq, hReader, Reader.datum_octets d hFits, follow]

/-- A read fails only if no value of its format comes next. -/
theorem datum_eq_none {f : Format} {c : Cursor} :
    (c.datum f).1 = none
      ↔ ¬ ∃ (d : Datum) (rest : List UInt8), d.format = f ∧ d.fits = true
          ∧ c.octets.drop c.position = d.octets ++ rest := by
  constructor
  · rintro hNone ⟨d, rest, rfl, hFits, hNext⟩
    rw [datum_of_next hFits hNext] at hNone
    cases hNone
  · intro hNothing
    obtain hRead | ⟨d, c', _, hPasses, hFormat, hFits⟩ := datum_cases f c
    · rw [hRead]
    · exact absurd ⟨d, _, hFormat, hFits, hPasses.drop_eq⟩ hNothing

/-- Tries reads one after another, whether or not they fail, and gives the values that were read. -/
def attempts : List Format → Cursor → List Datum × Cursor
  | [], c => ([], c)
  | f :: fs, c =>
    match c.datum f with
    | (none, c) => attempts fs c
    | (some d, c) => (attempts fs c).map (d :: ·) id

/-- **Whatever is read, and whatever of it fails, the cursor passes the octets of the values that
were read.** -/
theorem attempts_passes (fs : List Format) (c : Cursor) :
    Passes c (attempts fs c).2 ((attempts fs c).1.flatMap Datum.octets) := by
  induction fs generalizing c with
  | nil => exact .refl c
  | cons f fs ih =>
    rw [attempts]
    obtain hRead | ⟨d, c', hRead, hPasses, _⟩ := datum_cases f c
    · rw [hRead]
      exact ih c
    · rw [hRead]
      exact hPasses.trans (ih c')

end Cursor

end Homestead.Stream
