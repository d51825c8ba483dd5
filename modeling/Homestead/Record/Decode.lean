/-
  Homestead.Record.Decode
  ───────────────────────
  **FROM OCTETS TO A RECORD.**

  A record is the number of a type, any fields, and then either the octet
  that ends it or its contents: octet 23, how many records there are, the
  records, and the octet that ends it.  Only a type that holds items, or
  one that cannot be used, may have contents, and containers lie at most
  24 deep in one another.

  Reading stops at the first octet that does not fit.  A failure says where
  the cursor stood then, because the same octets may go on to be read.
-/
import Homestead.Record.Basic

open Homestead.Stream

namespace Homestead.Record

/-! ## §1. Steps. -/

/-- Why reading stopped, and where. -/
structure Failure where
  /-- What is wrong. -/
  error : DecodeError
  /-- The position of the cursor. -/
  position : Nat
  deriving DecidableEq

/-- A step that reads a value off a cursor. -/
abbrev Step (α : Type) : Type := Reader → Except Failure (α × Reader)

/-- The step of a read that can only run out of octets. -/
def value {α : Type} (read : Reader → Option (α × Reader)) : Step α := fun r =>
  match read r with
  | some result => .ok result
  | none => .error ⟨.truncated r.position, r.position⟩

/-- Reads values of the given layouts. -/
def readData : List Format → Step (List Datum)
  | [], r => .ok ([], r)
  | f :: fs, r => do
    let (d, r) ← value (Reader.datum f) r
    let (ds, r) ← readData fs r
    return (d :: ds, r)

/-- Reads so many values with one step. -/
def times {α : Type} (step : Step α) : Nat → Step (List α)
  | 0, r => .ok ([], r)
  | n + 1, r => do
    let (a, r) ← step r
    let (as, r) ← times step n r
    return (a :: as, r)

/-! ## §2. Fields. -/

/-- How the fields of a record end. -/
inductive Closing where
  /-- The record ends. -/
  | finish
  /-- The contents follow. -/
  | contents
  deriving DecidableEq

/-- What an octet between fields stands for. -/
inductive Mark where
  /-- The fields end. -/
  | close (closing : Closing)
  /-- A field. -/
  | field (f : Field)
  deriving DecidableEq

/-- Reads a field, or the end of the fields. -/
def readMark : Step Mark := fun r => do
  let (code, r') ← value Reader.u8 r
  if code = endCode then return (.close .finish, r')
  else if code = contentsCode then return (.close .contents, r')
  else match Tag.ofCode? code with
    | none => throw ⟨.unknownTag code r.position, r'.position⟩
    | some tag => do
      let (payload, r') ← readData tag.formats r'
      return (.field ⟨tag, payload⟩, r')

/-- A step that reads a value succeeds exactly if the value is there. -/
theorem value_eq_ok {α : Type} {read : Reader → Option (α × Reader)} {r r' : Reader} {a : α} :
    value read r = .ok (a, r') ↔ read r = some (a, r') := by
  unfold value
  split <;> simp_all

/-- Reading data passes octets. -/
theorem readData_passes {fs : List Format} {r r' : Reader} {ds : List Datum}
    (h : readData fs r = .ok (ds, r')) : ∃ octets, Reader.Passes r r' octets := by
  induction fs generalizing r ds with
  | nil =>
    simp only [readData, Except.ok.injEq, Prod.mk.injEq] at h
    obtain ⟨rfl, rfl⟩ := h
    exact ⟨[], rfl, rfl⟩
  | cons f fs ih =>
    unfold readData at h
    cases hValue : value (Reader.datum f) r with
    | error e => simp [hValue, bind, Except.bind] at h
    | ok first =>
      cases hRest : readData fs first.2 with
      | error e => simp [hValue, hRest, bind, Except.bind] at h
      | ok rest =>
        simp only [hValue, hRest, bind, Except.bind, pure, Except.pure, Except.ok.injEq,
          Prod.mk.injEq] at h
        obtain ⟨_, rfl⟩ := h
        -- The first datum passes its octets, and the others pass theirs behind it.
        obtain ⟨front, hFront⟩ := Reader.datum_passes (value_eq_ok.1 hValue)
        obtain ⟨back, hBack⟩ := ih hRest
        exact ⟨front ++ back, hFront.trans hBack⟩

/-- Reading a field moves the cursor. -/
theorem readMark_length_lt {r r' : Reader} {m : Mark} (h : readMark r = .ok (m, r')) :
    r'.rest.length < r.rest.length := by
  unfold readMark at h
  cases hCode : value Reader.u8 r with
  | error e => simp [hCode, bind, Except.bind] at h
  | ok first =>
    obtain ⟨code, r₁⟩ := first
    obtain ⟨octets, hPasses, hLength⟩ := Reader.u8_passes (value_eq_ok.1 hCode)
    -- The tag has been passed; what follows it only goes forward.
    have hFirst := hPasses.length_eq
    simp only [hCode, bind, Except.bind, pure, Except.pure] at h
    split at h
    · simp only [Except.ok.injEq, Prod.mk.injEq] at h
      obtain ⟨_, rfl⟩ := h
      omega
    · split at h
      · simp only [Except.ok.injEq, Prod.mk.injEq] at h
        obtain ⟨_, rfl⟩ := h
        omega
      · split at h
        · simp [throw, throwThe, MonadExceptOf.throw] at h
        · rename_i tag _
          cases hData : readData tag.formats r₁ with
          | error e => simp [hData] at h
          | ok data =>
            simp only [hData, Except.ok.injEq, Prod.mk.injEq] at h
            obtain ⟨_, rfl⟩ := h
            obtain ⟨_, hRest⟩ := readData_passes hData
            have := hRest.length_eq
            omega

/-- Reads the fields up to their end. -/
def readFields (r : Reader) : Except Failure ((List Field × Closing) × Reader) :=
  match _read : readMark r with
  | .error e => .error e
  | .ok (.close closing, r') => .ok (([], closing), r')
  | .ok (.field f, r') =>
    match readFields r' with
    | .error e => .error e
    | .ok ((fs, closing), r'') => .ok ((f :: fs, closing), r'')
termination_by r.rest.length
decreasing_by exact readMark_length_lt _read

/-! ## §3. Records. -/

/-- Whether an item may have contents when it is read: it may where the catalog does not know. -/
def mayHold (host : Option Variant) : Bool :=
  host.all (·.isContainer)

/-- Reads the contents of a record behind octet 23, and the octet that ends the record. -/
def readContents (typeId : TypeId) (step : Step Record) : Step (List Record) := fun r => do
  let (count, r) ← value Reader.u32 r
  let (children, r) ← times step count.toNat r
  let (code, r') ← value Reader.u8 r
  if code = endCode then return (children, r')
  else throw ⟨.mismatch typeId (.noEnd r.position code), r'.position⟩

/-- Reads a record below which containers may lie so many levels deep. -/
def decodeWithin (c : Catalog) : Nat → Step Record
  | levels, r => do
    let (typeId, r) ← value Reader.u16 r
    let type := c.usable? typeId
    let host := type.map (·.variant)
    let ((fields, closing), r) ← readFields r
    let updates := fields.filterMap (Field.update? host)
    match closing with
    | .finish => return (.mk typeId type.isSome updates none, r)
    | .contents =>
      if !mayHold host then throw ⟨.mismatch typeId .contentsRefused, r.position⟩
      else match levels with
        | 0 => throw ⟨.mismatch typeId .tooDeep, r.position⟩
        | levels + 1 => do
          let (children, r) ← readContents typeId (decodeWithin c levels) r
          return (.mk typeId type.isSome updates (some children), r)

/-- Reads a record. -/
def decode (c : Catalog) : Step Record :=
  decodeWithin c maxDepth

end Homestead.Record
