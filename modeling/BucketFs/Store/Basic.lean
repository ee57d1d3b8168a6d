import BucketFs.Bytes.Basic
import BucketFs.KeyMap
import BucketFs.Object.Acl
import BucketFs.Object.Etag
import BucketFs.Object.Info
import BucketFs.Transfer.Upload

/-!
# A store in memory

The store is a value: its buckets with their objects in key order, its open multipart sessions, the
bound on the entries of a listing page, and the present time, which objects are stamped with.
Operations of this module set a store up and look into it; calls are answered in
`BucketFs.Store.Answer`.
-/

namespace BucketFs

open BucketFs.Text

/-- A stored object. -/
structure ObjectRecord where
  data : Bytes
  etag : String
  lastModified : Timestamp
  acl : Acl
  deriving DecidableEq, Repr

namespace ObjectRecord

/-- What the store tells about an object. -/
def info (o : ObjectRecord) (key : String) : ObjectInfo :=
  ⟨key, o.data.length, o.lastModified, some o.etag⟩

end ObjectRecord

/-- The objects of one bucket by key. -/
abbrev Bucket := KeyMap ObjectRecord

/-- A part that was sent to an open session. -/
structure SentPart where
  range : ByteRange
  data : Bytes
  etag : String
  deriving DecidableEq, Repr

/-- An open multipart session: its target and the latest part sent for each number. -/
structure OpenSession where
  bucket : String
  key : String
  acl : Acl
  parts : List (Nat × SentPart) := []
  deriving DecidableEq, Repr

namespace OpenSession

/-- The latest part of a number. -/
def part? (u : OpenSession) (number : Nat) : Option SentPart := u.parts.lookup number

/-- The session with a part in the place of an earlier one of its number. -/
def setPart (u : OpenSession) (number : Nat) (part : SentPart) : OpenSession :=
  { u with parts := (number, part) :: u.parts.filter fun p => p.1 ≠ number }

end OpenSession

/-- An object store in memory. -/
structure Store where
  buckets : KeyMap Bucket
  uploads : KeyMap OpenSession
  /-- The number of sessions opened so far; it makes upload ids unique. -/
  opened : Nat
  pageLimit : Nat
  now : Timestamp
  pageLimit_pos : 0 < pageLimit

namespace Store

/-- The page limit of a store for which none was asked. -/
def standardLimit : Nat := 1000

/-- A store without buckets.  A page limit of zero acts as one. -/
def new (pageLimit : Nat) (now : Timestamp) : Store :=
  ⟨.empty, .empty, 0, max 1 pageLimit, now, by omega⟩

/-- The objects of a bucket. -/
def bucket? (s : Store) (bucket : String) : Option Bucket := s.buckets.get? bucket

/-- An object by bucket and key. -/
def object? (s : Store) (bucket key : String) : Option ObjectRecord :=
  (s.bucket? bucket).bind fun b => b.get? key

/-- The store with other objects in a bucket. -/
def setBucket (s : Store) (bucket : String) (objects : Bucket) : Store :=
  { s with buckets := s.buckets.insert bucket objects }

/-- Makes sure that a bucket exists. -/
def makeBucket (s : Store) (bucket : String) : Store :=
  match s.bucket? bucket with
  | some _ => s
  | none => s.setBucket bucket .empty

/-- An object stamped with the present time. -/
def stamp (s : Store) (data : Bytes) (etag : String) (acl : Acl) : ObjectRecord :=
  ⟨data, etag, s.now, acl⟩

/-- Stores a content, in a new bucket where there was none. -/
def addObject (s : Store) (bucket key : String) (data : Bytes) : Store :=
  s.setBucket bucket
    (((s.bucket? bucket).getD .empty).insert key (s.stamp data (Etag.ofContent data) .byDefault))

/-- Stores an empty directory marker; its key ends in the separator. -/
def addMarker (s : Store) (bucket key : String) : Store :=
  s.addObject bucket (if endsInSeparator key then key else key ++ slash) []

/-- The number of objects of a bucket. -/
def countIn (s : Store) (bucket : String) : Nat := (s.bucket? bucket).elim 0 KeyMap.size

/-- The content of an object. -/
def content? (s : Store) (bucket key : String) : Option Bytes :=
  (s.object? bucket key).map (·.data)

/-- The access setting of an object. -/
def acl? (s : Store) (bucket key : String) : Option Acl :=
  (s.object? bucket key).map (·.acl)

/-- The number of open sessions. -/
def sessionCount (s : Store) : Nat := s.uploads.size

/-- A description by counts. -/
def describe (s : Store) : String :=
  "InMemoryStorage \x7b buckets_count: " ++ toString s.buckets.size ++ ", uploads_count: "
    ++ toString s.uploads.size ++ ", page_limit: " ++ toString s.pageLimit ++ " \x7d"

end Store

end BucketFs
