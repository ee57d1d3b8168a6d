/-!
# Byte strings

Object contents, digests and encoded texts are lists of bytes.  A text and its UTF-8 form are
joined by `utf8` and `ofUtf8?`; the second accepts exactly the well-formed byte strings.
-/

namespace BucketFs

/-- A finite sequence of bytes. -/
abbrev Bytes := List UInt8

namespace Bytes

/-- The UTF-8 form of a text. -/
def utf8 (s : String) : Bytes := s.toUTF8.data.toList

/-- The text whose UTF-8 form is `b`, if `b` is well formed. -/
def ofUtf8? (b : Bytes) : Option String := String.fromUTF8? ⟨b.toArray⟩

/-- The bytes at the positions `start, …, stop - 1`. -/
def slice (b : Bytes) (start stop : Nat) : Bytes := (b.drop start).take (stop - start)

end Bytes

end BucketFs
