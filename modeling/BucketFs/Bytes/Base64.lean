import BucketFs.Bytes.Basic

/-!
# Base64

The alphabet of RFC 4648 with mandatory padding.  `decode?` accepts only canonical texts: the
length is a multiple of four, padding stands at the end alone, and the bits that padding leaves
over are zero.
-/

namespace BucketFs.Bytes.Base64

/-- The character of a six-bit value. -/
def digit (n : Nat) : Char :=
  if n < 26 then Char.ofNat (65 + n)
  else if n < 52 then Char.ofNat (71 + n)
  else if n < 62 then Char.ofNat (n - 4)
  else if n = 62 then '+'
  else '/'

/-- The six-bit value of a character of the alphabet. -/
def value? (c : Char) : Option Nat :=
  let n := c.toNat
  if 65 ≤ n ∧ n ≤ 90 then some (n - 65)
  else if 97 ≤ n ∧ n ≤ 122 then some (n - 71)
  else if 48 ≤ n ∧ n ≤ 57 then some (n + 4)
  else if c = '+' then some 62
  else if c = '/' then some 63
  else none

/-- Four characters for each group of three bytes, the last group padded. -/
def encodeChars : Bytes → List Char
  | [] => []
  | [a] =>
    let n := a.toNat * 16
    [digit (n / 64), digit (n % 64), '=', '=']
  | [a, b] =>
    let n := (a.toNat * 256 + b.toNat) * 4
    [digit (n / 4096), digit (n / 64 % 64), digit (n % 64), '=']
  | a :: b :: c :: rest =>
    let n := (a.toNat * 256 + b.toNat) * 256 + c.toNat
    digit (n / 262144) :: digit (n / 4096 % 64) :: digit (n / 64 % 64) :: digit (n % 64)
      :: encodeChars rest

/-- The Base64 text of a byte string. -/
def encode (b : Bytes) : String := String.ofList (encodeChars b)

/-- Reads groups of four characters; a padded group must be the last. -/
def decodeChars? : List Char → Option Bytes
  | [] => some []
  | [a, b, '=', '='] =>
    match value? a, value? b with
    | some x, some y => if y % 16 = 0 then some [UInt8.ofNat (x * 4 + y / 16)] else none
    | _, _ => none
  | [a, b, c, '='] =>
    match value? a, value? b, value? c with
    | some x, some y, some z =>
      if z % 4 = 0 then
        some [UInt8.ofNat (x * 4 + y / 16), UInt8.ofNat (y % 16 * 16 + z / 4)]
      else none
    | _, _, _ => none
  | a :: b :: c :: d :: rest =>
    match value? a, value? b, value? c, value? d with
    | some x, some y, some z, some w =>
      (decodeChars? rest).map fun t =>
        UInt8.ofNat (x * 4 + y / 16) :: UInt8.ofNat (y % 16 * 16 + z / 4)
          :: UInt8.ofNat (z % 4 * 64 + w) :: t
    | _, _, _, _ => none
  | _ => none

/-- The byte string of a canonical Base64 text. -/
def decode? (s : String) : Option Bytes := decodeChars? s.toList

end BucketFs.Bytes.Base64
