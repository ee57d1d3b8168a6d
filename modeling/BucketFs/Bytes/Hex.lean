import BucketFs.Bytes.Basic

/-!
# Hexadecimal digits

`encode` writes two lower-case digits a byte; `decode?` reads digits of either case and refuses
an odd number of them.
-/

namespace BucketFs.Bytes.Hex

/-- The lower-case digit of a value below sixteen. -/
def lowerDigit (n : Nat) : Char := Char.ofNat (if n < 10 then 48 + n else 87 + n)

/-- The upper-case digit of a value below sixteen. -/
def upperDigit (n : Nat) : Char := Char.ofNat (if n < 10 then 48 + n else 55 + n)

/-- The value of a digit given by its ASCII code. -/
def valueOfCode? (n : Nat) : Option Nat :=
  if 48 ≤ n ∧ n ≤ 57 then some (n - 48)
  else if 97 ≤ n ∧ n ≤ 102 then some (n - 87)
  else if 65 ≤ n ∧ n ≤ 70 then some (n - 55)
  else none

/-- The value of a digit of either case. -/
def value? (c : Char) : Option Nat := valueOfCode? c.toNat

/-- The two lower-case digits of each byte. -/
def encodeChars : Bytes → List Char
  | [] => []
  | b :: rest => lowerDigit (b.toNat / 16) :: lowerDigit (b.toNat % 16) :: encodeChars rest

/-- The lower-case hexadecimal form. -/
def encode (b : Bytes) : String := String.ofList (encodeChars b)

/-- Reads pairs of digits; a single digit left over is refused. -/
def decodeChars? : List Char → Option Bytes
  | [] => some []
  | [_] => none
  | a :: b :: rest =>
    match value? a, value? b with
    | some x, some y => (decodeChars? rest).map (UInt8.ofNat (16 * x + y) :: ·)
    | _, _ => none

/-- The bytes written by an even number of digits of either case. -/
def decode? (s : String) : Option Bytes := decodeChars? s.toList

end BucketFs.Bytes.Hex
