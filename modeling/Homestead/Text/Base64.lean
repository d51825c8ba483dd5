/-
  Homestead.Text.Base64
  ─────────────────────
  **OCTETS AS BASE-64 TEXT.**

  Three octets become four letters of the standard alphabet; a last group
  of one or two octets is filled up with `=`.
-/

namespace Homestead.Text

/-- The letters of the standard alphabet, by value. -/
def base64Alphabet : Array Char :=
  "ABCDEFGHIJKLMNOPQRSTUVWXYZabcdefghijklmnopqrstuvwxyz0123456789+/".toList.toArray

/-- The letter of a value below 64. -/
def base64Letter (value : Nat) : Char :=
  base64Alphabet.getD (value % 64) '='

/-- The base-64 letters of a run of octets. -/
def base64Chars : List UInt8 → List Char
  | a :: b :: c :: rest =>
    let n := a.toNat * 65536 + b.toNat * 256 + c.toNat
    base64Letter (n / 262144) :: base64Letter (n / 4096) :: base64Letter (n / 64)
      :: base64Letter n :: base64Chars rest
  | [a, b] =>
    let n := a.toNat * 1024 + b.toNat * 4
    [base64Letter (n / 4096), base64Letter (n / 64), base64Letter n, '=']
  | [a] =>
    let n := a.toNat * 16
    [base64Letter (n / 64), base64Letter n, '=', '=']
  | [] => []

/-- The base-64 text of a run of octets. -/
def base64 (octets : List UInt8) : String :=
  String.ofList (base64Chars octets)

end Homestead.Text
