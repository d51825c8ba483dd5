/-
  Homestead.Yaml.Reading
  ──────────────────────
  **READING A TREE AS TYPED VALUES.**

  A number or truth value must be written plain; a text may be written in
  any way and is taken as it stands.  A place where nothing was written
  reads as an empty list or record, and as an absent optional value.
  Records refuse unknown and repeated keys.
-/
import Homestead.Yaml.Node

namespace Homestead.Yaml

/-! ## §1. Numbers. -/

/-- Bases that a marker in front of the digits selects. -/
def baseMarkers : List (List Char × Nat) :=
  [(['0', 'x'], 16), (['0', 'o'], 8), (['0', 'b'], 2)]

/-- The digits behind the marker of a base, with the base. -/
def markedDigits? (cs : List Char) : Option Nat :=
  baseMarkers.findSome? fun (marker, base) =>
    if marker.isPrefixOf cs then Text.numeral? base (cs.drop marker.length) else none

/-- The value of a decimal numeral without superfluous leading zeros. -/
def decimal? (cs : List Char) : Option Nat :=
  if cs.length > 1 && cs.head? == some '0' then none else Text.numeral? 10 cs

/-- The value of a numeral without sign, in any base. -/
def magnitude? (cs : List Char) : Option Nat :=
  match markedDigits? cs with
  | some n => some n
  | none => decimal? cs

/-- The value of a signed numeral. -/
def integer? (s : String) : Option Int :=
  match s.toList with
  | '-' :: cs => (magnitude? cs).map fun n => -(n : Int)
  | '+' :: cs => (magnitude? cs).map fun n => (n : Int)
  | cs => (magnitude? cs).map fun n => (n : Int)

/-- The value of a numeral that may not carry a minus sign. -/
def natural? (s : String) : Option Nat :=
  match s.toList with
  | '-' :: _ => none
  | '+' :: cs => magnitude? cs
  | cs => magnitude? cs

/-! ## §2. Texts, numbers and truth values. -/

/-- The full form of a standard tag. -/
def standardTag (name : String) : String :=
  "tag:yaml.org,2002:" ++ name

namespace Node

/-- Whether nothing was written here. -/
def isAbsent : Node → Bool
  | .scalar .plain _ "" => true
  | _ => false

/-- The characters of a text, however it was written. -/
def asText : Node → Except Problem String
  | .scalar _ _ text => .ok text
  | _ => .error (.unexpected "string")

/-- The text of a value that has to be plain, or a literal block with the tag of its kind. -/
def plainText (kind : String) : Node → Except Problem String
  | .scalar .plain _ text => .ok text
  | .scalar .literal (some tag) text =>
    if tag == standardTag kind then .ok text else .error (.unexpected kind)
  | _ => .error (.unexpected kind)

/-- A number from 0 up to a greatest one. -/
def asNatural (greatest : Nat) (n : Node) : Except Problem Nat := do
  match natural? (← n.plainText "int") with
  | none => throw (.unexpected "int")
  | some v => if v ≤ greatest then return v else throw .outOfRange

/-- A number between two bounds. -/
def asInteger (least greatest : Int) (n : Node) : Except Problem Int := do
  match integer? (← n.plainText "int") with
  | none => throw (.unexpected "int")
  | some v => if least ≤ v && v ≤ greatest then return v else throw .outOfRange

/-- A number of two octets. -/
def asU16 (n : Node) : Except Problem UInt16 :=
  (n.asNatural 65535).map UInt16.ofNat

/-- A number of four octets. -/
def asU32 (n : Node) : Except Problem UInt32 :=
  (n.asNatural 4294967295).map UInt32.ofNat

/-- A signed number of four octets. -/
def asI32 (n : Node) : Except Problem Int :=
  n.asInteger (-2147483648) 2147483647

/-- A truth value. -/
def asBool (n : Node) : Except Problem Bool := do
  match ← n.plainText "bool" with
  | "true" | "True" | "TRUE" => return true
  | "false" | "False" | "FALSE" => return false
  | _ => throw (.unexpected "boolean")

/-- The spellings of the absent value. -/
def isNullText (s : String) : Bool :=
  s == "null" || s == "Null" || s == "NULL" || s == "~"

/-- A value that may be absent. -/
def asOptional {α : Type} (read : Node → Except Problem α) : Node → Except Problem (Option α)
  | .scalar .plain none text =>
    if text == "" || isNullText text then .ok none
    else (read (.scalar .plain none text)).map some
  | .scalar .plain (some tag) text =>
    if tag == standardTag "null" then
      if isNullText text then .ok none else .error (.unexpected "null")
    else (read (.scalar .plain (some tag) text)).map some
  | n => (read n).map some

/-- One of a fixed list of names, written as a text or as a tag of its own. -/
def asVariant {α : Type} (variant? : String → Option α) (n : Node) : Except Problem α := do
  let name ← match n with
    | .scalar style (some tag) text =>
      match tag.toList with
      | '!' :: rest =>
        if style == .plain && (text == "" || isNullText text) then
          pure (if rest.isEmpty then "!" else String.ofList rest)
        else throw (.unexpected "unit variant")
      | _ => pure text
    | .scalar _ none text => pure text
    | _ => throw (.unexpected "a tag")
  match variant? name with
  | some v => return v
  | none => throw (.unknownVariant name)

/-! ## §3. Lists and records. -/

/-- The items of a list. -/
def asList {α : Type} (read : Node → Except Problem α) (n : Node) : Except Problem (List α) :=
  match n with
  | .sequence _ items => items.mapM read
  | n => if n.isAbsent then .ok [] else .error (.unexpected "a sequence")

/-- The entries of a record whose keys are all known and different. -/
def asRecord (known : List String) (n : Node) : Except Problem (List (String × Node)) :=
  match n with
  | .mapping _ entries => entries.foldlM add []
  | n => if n.isAbsent then .ok [] else .error (.unexpected "a mapping")
where
  add (fields : List (String × Node)) (entry : Node × Node) :
      Except Problem (List (String × Node)) := do
    let name ← entry.1.asText
    if !known.contains name then throw (.unknownField name)
    if fields.any (·.1 == name) then throw (.duplicateField name)
    return (name, entry.2) :: fields

end Node

/-- The value of a field that has to be there. -/
def required {α : Type} (fields : List (String × Node)) (name : String)
    (read : Node → Except Problem α) : Except Problem α :=
  match fields.lookup name with
  | some n => read n
  | none => .error (.missingField name)

/-- The value of a field, or the given one when it is not there. -/
def field {α : Type} (fields : List (String × Node)) (name : String) (absent : α)
    (read : Node → Except Problem α) : Except Problem α :=
  match fields.lookup name with
  | some n => read n
  | none => .ok absent

/-- Reads a text as a value; a text without document counts as one in which nothing was
written. -/
def readText {α : Type} (read : Node → Except Problem α) (text : String) : Except Problem α := do
  read ((← Node.parse text).getD .absent)

end Homestead.Yaml
