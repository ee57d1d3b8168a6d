import BucketFs.Bytes.Basic

/-!
# Reading bytes that are not well formed

`ofUtf8Lossy` reads every byte string as a text.  Where no character can be read, the longest
beginning of one, or else a single byte, is read as the replacement character; so a well-formed
string is read as what it writes.
-/

namespace BucketFs.Bytes

/-- The character that stands for bytes that write none. -/
def replacement : Char := Char.ofNat 0xfffd

/-- The least and the greatest second byte of a character that starts with `lead`. -/
def secondByte (lead : UInt8) : UInt8 × UInt8 :=
  if lead = 0xe0 then (0xa0, 0xbf)
  else if lead = 0xed then (0x80, 0x9f)
  else if lead = 0xf0 then (0x90, 0xbf)
  else if lead = 0xf4 then (0x80, 0x8f)
  else (0x80, 0xbf)

/-- The number of bytes of a character that starts with `lead`; zero if none does. -/
def charLength (lead : UInt8) : Nat :=
  if lead < 0x80 then 1
  else if lead < 0xc2 then 0
  else if lead < 0xe0 then 2
  else if lead < 0xf0 then 3
  else if lead < 0xf5 then 4
  else 0

/-- The first bytes of `rest`, at most `n`, that may follow in a character: the next one lies
within the given bounds and all later ones are continuations. -/
def continuation : Nat → UInt8 × UInt8 → Bytes → Bytes
  | n + 1, (low, high), b :: rest =>
    if low ≤ b && b ≤ high then b :: continuation n (0x80, 0xbf) rest else []
  | _, _, _ => []

/-- The bytes after the first that are read together with it. -/
def following (lead : UInt8) (rest : Bytes) : Bytes :=
  continuation (charLength lead - 1) (secondByte lead) rest

/-- The text of a byte string, with replacements where it is not well formed. -/
def ofUtf8Lossy : Bytes → List Char
  | [] => []
  | lead :: rest =>
    let read := following lead rest
    let chars := ((ofUtf8? (lead :: read)).map String.toList).getD [replacement]
    chars ++ ofUtf8Lossy (rest.drop read.length)
termination_by b => b.length
decreasing_by
  rw [List.length_drop, List.length_cons]
  omega

end BucketFs.Bytes
