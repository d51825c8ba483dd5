/-
  Homestead.Attribute.Table
  ─────────────────────────
  **THE SPARSE ATTRIBUTES OF ONE ITEM.**

  A table lists its entries in the order in which their kinds were first
  set, and keeps beside them a word with one bit for each kind, so that
  asking for a kind never walks the list.  A number is never stored under a
  text kind, nor a text under a number kind, and the empty text is never
  stored.
-/
import Homestead.Attribute.Kind

namespace Homestead

/-! ## §1. Values. -/

/-- The value of an attribute. -/
inductive AttributeValue where
  /-- A signed number of 64 bits. -/
  | number (n : Int)
  /-- A text. -/
  | text (s : String)
  deriving DecidableEq

/-- `x`, or the bound that it passes. -/
def clamp (low high x : Int) : Int :=
  max low (min high x)

/-- `x`, or the bound of the signed 64-bit numbers that it passes. -/
def saturate (x : Int) : Int :=
  clamp (-9223372036854775808) 9223372036854775807 x

/-! ## §2. Tables. -/

/-- The attributes of one item. -/
structure AttributeTable where
  /-- One bit for each kind that has an entry. -/
  presence : BitVec 31 := 0
  /-- The entries, in the order in which their kinds were first set. -/
  entries : List (Kind × AttributeValue) := []
  deriving DecidableEq

namespace AttributeTable

/-- The table without entries. -/
def empty : AttributeTable := {}

/-- The word with the bit of one kind. -/
def bit (k : Kind) : BitVec 31 :=
  BitVec.twoPow 31 k.index

/-- Whether the kind has an entry. -/
def has (t : AttributeTable) (k : Kind) : Bool :=
  t.presence.getLsbD k.index

/-- The value of the kind. -/
def get? (t : AttributeTable) (k : Kind) : Option AttributeValue :=
  if t.has k then (t.entries.find? (·.1 = k)).map (·.2) else none

/-- The number of the kind, 0 when it has none. -/
def number (t : AttributeTable) (k : Kind) : Int :=
  match k.isNumber, t.get? k with
  | true, some (.number n) => n
  | _, _ => 0

/-- The text of the kind, empty when it has none. -/
def text (t : AttributeTable) (k : Kind) : String :=
  match k.isText, t.get? k with
  | true, some (.text s) => s
  | _, _ => ""

/-- Replaces the value of the kind's entry, or adds an entry at the end. -/
def assign (k : Kind) (v : AttributeValue) :
    List (Kind × AttributeValue) → List (Kind × AttributeValue)
  | [] => [(k, v)]
  | e :: es => if e.1 = k then (k, v) :: es else e :: assign k v es

/-- Stores a value under a kind. -/
def put (t : AttributeTable) (k : Kind) (v : AttributeValue) : AttributeTable :=
  { presence := t.presence ||| bit k, entries := assign k v t.entries }

/-- Stores a number; a text kind is left alone. -/
def setNumber (t : AttributeTable) (k : Kind) (n : Int) : AttributeTable :=
  if k.isNumber then t.put k (.number n) else t

/-- Adds to a number, stopping at the 64-bit bounds; a text kind is left alone. -/
def increase (t : AttributeTable) (k : Kind) (delta : Int) : AttributeTable :=
  t.setNumber k (saturate (t.number k + delta))

/-- Stores a text; a number kind is left alone, and so is every kind by the empty text. -/
def setText (t : AttributeTable) (k : Kind) (s : String) : AttributeTable :=
  if k.isText && s != "" then t.put k (.text s) else t

/-- Removes the entry of a kind. -/
def remove (t : AttributeTable) (k : Kind) : AttributeTable :=
  if t.has k then
    { presence := t.presence &&& ~~~ bit k, entries := t.entries.eraseP (·.1 = k) }
  else t

/-- Whether no kind has an entry. -/
def isEmpty (t : AttributeTable) : Bool :=
  t.presence == 0

/-- The number of entries. -/
def size (t : AttributeTable) : Nat :=
  t.entries.length

/-- Whether two tables hold the same value for every kind that either has. -/
def agrees (t u : AttributeTable) : Bool :=
  t.presence == u.presence &&
    t.entries.all fun e =>
      if e.1.isText then t.text e.1 == u.text e.1 else t.number e.1 == u.number e.1

end AttributeTable

end Homestead
