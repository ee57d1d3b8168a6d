import BucketFs.Text.Percent
import BucketFs.Text.Separated

/-!
# Names of buckets

The name of a bucket decides how it is addressed.  It may be fit to be a label of a host; it may end
in the mark of a directory bucket, in front of which stands the name of a zone; and it may be an
alias of an access point on an outpost.
-/

namespace BucketFs.Remote

open BucketFs.Text

namespace BucketName

/-- The last characters of a bucket between two distances from its end. -/
def fromEnd (bucket : List Char) (start stop : Nat) : List Char :=
  (bucket.take (bucket.length - start)).drop (bucket.length - stop)

/-- Whether a character may stand at both ends of a bucket in a host. -/
def isEnd (c : Char) : Bool := c.isDigit || c.isLower

/-- Whether a bucket may be a label of a host: 3 to 63 lower-case letters, digits and hyphens, and
no hyphen at an end. -/
def isLabel (cs : List Char) : Bool :=
  3 ≤ cs.length && cs.length ≤ 63 && cs.all (fun c => isEnd c || c = '-')
    && cs.head?.any isEnd && cs.getLast?.any isEnd

/-- Whether a bucket may be several labels of a host. -/
def isName (cs : List Char) : Bool := (pieces '.' cs).all isLabel

/-- The bytes that stand for themselves where a path names a bucket. -/
def isPathVerbatim (b : UInt8) : Bool :=
  (0x30 ≤ b && b ≤ 0x39) || (0x41 ≤ b && b ≤ 0x5a) || (0x61 ≤ b && b ≤ 0x7a)
    || b == 0x2d || b == 0x5f || b == 0x2e || b == 0x7e

/-- A bucket as a part of a path. -/
def inPath (bucket : String) : String := Percent.encode isPathVerbatim bucket

/-- The marks at the end of directory buckets and of their access points. -/
def directoryMarks : List String := ["--x-s3", "--xa-s3"]

/-- What a directory bucket has in front of its mark. -/
def directoryBase? (bucket : String) : Option (List Char) :=
  directoryMarks.findSome? fun mark =>
    if isAscii bucket && mark.toList.isSuffixOf bucket.toList then
      some (bucket.toList.take (bucket.length - mark.length))
    else none

/-- The lengths of the names of zones. -/
def zoneLengths : List Nat := [8, 9, 13, 14, 20]

/-- The zone at the end of what a directory bucket has in front of its mark: two hyphens come before
it. -/
def zone? (base : List Char) : Option String :=
  (zoneLengths.find? fun n => fromEnd base n (n + 2) = ['-', '-']).map fun n =>
    String.ofList (fromEnd base 0 n)

/-- An alias of an access point on an outpost. -/
structure OutpostAlias where
  outpost : List Char
  /-- The kind of machine, as one letter. -/
  hardware : List Char
  /-- The four characters that tell a trial from the regular service. -/
  stage : List Char
  deriving DecidableEq, Repr

/-- Reads an alias; its parts stand at fixed distances from its end. -/
def outpostAlias? (bucket : String) : Option OutpostAlias :=
  let cs := bucket.toList
  if isAscii bucket && 50 ≤ cs.length && fromEnd cs 0 7 = "--op-s3".toList then
    some ⟨fromEnd cs 32 49, fromEnd cs 49 50, fromEnd cs 8 12⟩
  else none

end BucketName

end BucketFs.Remote
