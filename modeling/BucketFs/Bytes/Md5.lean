import BucketFs.Bytes.Hex

/-!
# The MD5 digest

The digest is a fold of one compression step over the 64-byte blocks of the padded message.  The
four rounds share one step and differ in their mixing function and in a table of message index,
rotation and additive constant.
-/

namespace BucketFs.Bytes.Md5

/-- The four chaining words. -/
structure Chain where
  a : UInt32
  b : UInt32
  c : UInt32
  d : UInt32
  deriving DecidableEq, Repr

/-- The chaining words before the first block. -/
def Chain.start : Chain := ⟨0x67452301, 0xefcdab89, 0x98badcfe, 0x10325476⟩

/-- One row of a round: which message word is added, the rotation, and the constant. -/
structure Row where
  word : Nat
  rotation : UInt32
  constant : UInt32

/-- A round: its mixing function and its sixteen rows. -/
structure Round where
  mix : UInt32 → UInt32 → UInt32 → UInt32
  rows : List Row

/-- The four rounds of the compression function. -/
def rounds : List Round := [
  ⟨fun x y z => (x &&& y) ||| (~~~x &&& z), [
   ⟨0, 7, 3614090360⟩, ⟨1, 12, 3905402710⟩, ⟨2, 17, 606105819⟩, ⟨3, 22, 3250441966⟩,
   ⟨4, 7, 4118548399⟩, ⟨5, 12, 1200080426⟩, ⟨6, 17, 2821735955⟩, ⟨7, 22, 4249261313⟩,
   ⟨8, 7, 1770035416⟩, ⟨9, 12, 2336552879⟩, ⟨10, 17, 4294925233⟩, ⟨11, 22, 2304563134⟩,
   ⟨12, 7, 1804603682⟩, ⟨13, 12, 4254626195⟩, ⟨14, 17, 2792965006⟩, ⟨15, 22, 1236535329⟩]⟩,
  ⟨fun x y z => (z &&& x) ||| (~~~z &&& y), [
   ⟨1, 5, 4129170786⟩, ⟨6, 9, 3225465664⟩, ⟨11, 14, 643717713⟩, ⟨0, 20, 3921069994⟩,
   ⟨5, 5, 3593408605⟩, ⟨10, 9, 38016083⟩, ⟨15, 14, 3634488961⟩, ⟨4, 20, 3889429448⟩,
   ⟨9, 5, 568446438⟩, ⟨14, 9, 3275163606⟩, ⟨3, 14, 4107603335⟩, ⟨8, 20, 1163531501⟩,
   ⟨13, 5, 2850285829⟩, ⟨2, 9, 4243563512⟩, ⟨7, 14, 1735328473⟩, ⟨12, 20, 2368359562⟩]⟩,
  ⟨fun x y z => x ^^^ y ^^^ z, [
   ⟨5, 4, 4294588738⟩, ⟨8, 11, 2272392833⟩, ⟨11, 16, 1839030562⟩, ⟨14, 23, 4259657740⟩,
   ⟨1, 4, 2763975236⟩, ⟨4, 11, 1272893353⟩, ⟨7, 16, 4139469664⟩, ⟨10, 23, 3200236656⟩,
   ⟨13, 4, 681279174⟩, ⟨0, 11, 3936430074⟩, ⟨3, 16, 3572445317⟩, ⟨6, 23, 76029189⟩,
   ⟨9, 4, 3654602809⟩, ⟨12, 11, 3873151461⟩, ⟨15, 16, 530742520⟩, ⟨2, 23, 3299628645⟩]⟩,
  ⟨fun x y z => y ^^^ (x ||| ~~~z), [
   ⟨0, 6, 4096336452⟩, ⟨7, 10, 1126891415⟩, ⟨14, 15, 2878612391⟩, ⟨5, 21, 4237533241⟩,
   ⟨12, 6, 1700485571⟩, ⟨3, 10, 2399980690⟩, ⟨10, 15, 4293915773⟩, ⟨1, 21, 2240044497⟩,
   ⟨8, 6, 1873313359⟩, ⟨15, 10, 4264355552⟩, ⟨6, 15, 2734768916⟩, ⟨13, 21, 1309151649⟩,
   ⟨4, 6, 4149444226⟩, ⟨11, 10, 3174756917⟩, ⟨2, 15, 718787259⟩, ⟨9, 21, 3951481745⟩]⟩]

/-- Rotation of a word to the left. -/
def rotateLeft (x n : UInt32) : UInt32 := (x <<< n) ||| (x >>> (32 - n))

/-- One step: the four words shift by one place and the new second word takes the mixed sum. -/
def step (mix : UInt32 → UInt32 → UInt32 → UInt32) (words : List UInt32) (s : Chain) (r : Row) :
    Chain :=
  let sum := s.a + mix s.b s.c s.d + r.constant + words.getD r.word 0
  ⟨s.d, s.b + rotateLeft sum r.rotation, s.b, s.c⟩

/-- The little-endian words of a byte string, a short rest being dropped. -/
def wordsOf : Bytes → List UInt32
  | a :: b :: c :: d :: rest =>
    UInt32.ofNat (a.toNat + 256 * (b.toNat + 256 * (c.toNat + 256 * d.toNat))) :: wordsOf rest
  | _ => []

/-- The bytes of a word, least significant first. -/
def bytesOf (w : UInt32) : Bytes :=
  let n := w.toNat
  [UInt8.ofNat n, UInt8.ofNat (n / 256), UInt8.ofNat (n / 65536), UInt8.ofNat (n / 16777216)]

/-- All four rounds on one block, added to the words they started from. -/
def compress (s : Chain) (block : Bytes) : Chain :=
  let words := wordsOf block
  let t := rounds.foldl (fun s round => round.rows.foldl (step round.mix words) s) s
  ⟨s.a + t.a, s.b + t.b, s.c + t.c, s.d + t.d⟩

/-- Folds `compress` over the first `count` blocks. -/
def compressBlocks : Nat → Bytes → Chain → Chain
  | 0, _, s => s
  | count + 1, b, s => compressBlocks count (b.drop 64) (compress s (b.take 64))

/-- The first bytes of a number, least significant first. -/
def lowBytes : (count n : Nat) → Bytes
  | 0, _ => []
  | count + 1, n => UInt8.ofNat n :: lowBytes count (n / 256)

/-- The message, a one bit, zeros up to eight bytes short of a block, and the length in bits. -/
def pad (b : Bytes) : Bytes :=
  b ++ 0x80 :: (List.replicate ((119 - b.length % 64) % 64) 0 ++ lowBytes 8 (8 * b.length))

/-- The sixteen bytes of the digest. -/
def digest (b : Bytes) : Bytes :=
  let padded := pad b
  let s := compressBlocks (padded.length / 64) padded Chain.start
  bytesOf s.a ++ bytesOf s.b ++ bytesOf s.c ++ bytesOf s.d

/-- The digest in lower-case hexadecimal digits. -/
def hexDigest (b : Bytes) : String := Hex.encode (digest b)

end BucketFs.Bytes.Md5
