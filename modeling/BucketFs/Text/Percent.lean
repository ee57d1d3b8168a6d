import BucketFs.Bytes.Hex

/-!
# Percent encoding

A byte is written verbatim or as `%XX` with upper-case digits, as a predicate decides.  Reading
replaces every well-formed triple and leaves all else as it is, so it never fails on bytes; it
fails on texts whose bytes are not UTF-8 afterwards.
-/

namespace BucketFs.Text.Percent

open BucketFs.Bytes

/-- The triple of a byte. -/
def triple (b : UInt8) : List Char :=
  ['%', Hex.upperDigit (b.toNat / 16), Hex.upperDigit (b.toNat % 16)]

/-- Writes the bytes of a text, those that `verbatim` admits as the ASCII characters they are. -/
def encodeBytes (verbatim : UInt8 → Bool) (b : Bytes) : List Char :=
  b.flatMap fun x => if verbatim x then [Char.ofNat x.toNat] else triple x

/-- The percent-encoded form of a text. -/
def encode (verbatim : UInt8 → Bool) (s : String) : String :=
  String.ofList (encodeBytes verbatim (utf8 s))

/-- Replaces each `%` that two hexadecimal digits follow by the byte the digits write. -/
def decodeBytes : Bytes → Bytes
  | b :: h :: l :: rest =>
    if b = 0x25 then
      match Hex.valueOfCode? h.toNat, Hex.valueOfCode? l.toNat with
      | some x, some y => UInt8.ofNat (16 * x + y) :: decodeBytes rest
      | _, _ => b :: decodeBytes (h :: l :: rest)
    else b :: decodeBytes (h :: l :: rest)
  | b => b

/-- The decoded text, unless its bytes are no longer UTF-8. -/
def decode? (s : String) : Option String := ofUtf8? (decodeBytes (utf8 s))

end BucketFs.Text.Percent
