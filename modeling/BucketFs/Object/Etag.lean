import BucketFs.Bytes.Md5
import BucketFs.Text.Separated

/-!
# Entity tags

The tag of an object is the quoted digest of its content.  The tag of an assembled object digests
the digests of its parts and counts them.
-/

namespace BucketFs.Etag

open BucketFs.Bytes BucketFs.Text

/-- The quoted digest of a content. -/
def ofContent (b : Bytes) : String := "\"" ++ Md5.hexDigest b ++ "\""

/-- A tag without the quotes around it. -/
def unquoted (etag : String) : String := trimEnd '"' (trimStart '"' etag)

/-- The tag of an object assembled from parts; a part tag that is not hexadecimal adds nothing but
its count. -/
def ofParts (etags : List String) : String :=
  let digests := etags.flatMap fun t => (Hex.decode? (unquoted t)).getD []
  "\"" ++ Md5.hexDigest digests ++ "-" ++ toString etags.length ++ "\""

end BucketFs.Etag
