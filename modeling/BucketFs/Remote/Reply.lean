import BucketFs.Call.Store
import BucketFs.Text.Blank

/-!
# Replies of a remote service

A service answers with the fields it has or with a failure that may carry a code.  Reading an
answer fills missing fields in, reports missing entries as such, and refuses an answer without the
field that the call is for.
-/

namespace BucketFs.Remote

/-- A failure of a request: the status of the answer and the code in its body, as far as there is
any. -/
structure ServiceFailure where
  status : Option Nat := none
  code : Option String := none
  deriving DecidableEq, Repr

/-- The code of a failure.  An answer without one that has the status 404 says that nothing was
found. -/
def ServiceFailure.codeOf (f : ServiceFailure) : Option String :=
  f.code <|> if f.status = some 404 then some "NotFound" else none

/-- The fields of an answer to a probe. -/
structure HeadFields where
  contentLength : Option Int := none
  lastModified : Option (Int × Nat) := none
  etag : Option String := none
  deriving DecidableEq, Repr

/-- The fields of one listed object. -/
structure ListedObject where
  key : Option String := none
  size : Option Int := none
  lastModified : Option (Int × Nat) := none
  etag : Option String := none
  deriving DecidableEq, Repr

/-- The fields of a listing. -/
structure ListFields where
  contents : List ListedObject := []
  commonPrefixes : List (Option String) := []
  nextToken : Option String := none
  truncated : Option Bool := none
  deriving DecidableEq, Repr

/-- The fields by which the service answers a call that succeeds. -/
abbrev Fields : StoreCall → Type
  | .head _ _ => HeadFields
  | .list _ => ListFields
  | .get _ _ _ => Bytes
  | .put _ _ _ _ => Option String
  | .delete _ _ => Unit
  | .copy _ _ _ _ _ => Unit
  | .buckets => List (Option String)
  | .initiate _ _ _ => Option String
  | .uploadPart _ _ _ _ => Option String
  | .copyPart _ _ _ _ _ => Option String
  | .complete _ _ => Unit
  | .abort _ => Unit

/-- An answer of the service. -/
abbrev Reply (c : StoreCall) := Except ServiceFailure (Fields c)

/-- A size; one that is missing or negative is zero. -/
def readSize (size : Option Int) : Nat := (size.getD 0).toNat

/-- A time; one that is missing or out of range is the epoch. -/
def readTime (time : Option (Int × Nat)) : Timestamp :=
  (time.bind fun t => Timestamp.ofCounts? t.1 t.2).getD .epoch

/-- A field that is sent as a header; white space around it does not belong to it. -/
def readHeader (value : Option String) : Option String := value.map Text.trimBlank

/-- The codes of a missing entry. -/
def missingCodes : List String := ["NoSuchKey", "NoSuchBucket", "NotFound", "NoSuchUpload"]

/-- The name of the request that a call makes. -/
def operationName : StoreCall → String
  | .head _ _ => "HeadObject"
  | .list _ => "ListObjectsV2"
  | .get _ _ _ => "GetObject"
  | .put _ _ _ _ => "PutObject"
  | .delete _ _ => "DeleteObject"
  | .copy _ _ _ _ _ => "CopyObject"
  | .buckets => "ListBuckets"
  | .initiate _ _ _ => "CreateMultipartUpload"
  | .uploadPart _ _ _ _ => "UploadPart"
  | .copyPart _ _ _ _ _ => "UploadPartCopy"
  | .complete _ _ => "CompleteMultipartUpload"
  | .abort _ => "AbortMultipartUpload"

/-- The bucket and the key that a failure of a call is about: those of the source for a copy, and
the prefix for a listing. -/
def blamed : StoreCall → String × String
  | .head bucket key => (bucket, key)
  | .list r => (r.bucket, r.listed)
  | .get bucket key _ => (bucket, key)
  | .put bucket key _ _ => (bucket, key)
  | .delete bucket key => (bucket, key)
  | .copy sourceBucket sourceKey _ _ _ => (sourceBucket, sourceKey)
  | .buckets => ("", "")
  | .initiate bucket key _ => (bucket, key)
  | .uploadPart handle _ _ _ => (handle.bucket, handle.key)
  | .copyPart _ _ _ sourceBucket sourceKey => (sourceBucket, sourceKey)
  | .complete handle _ => (handle.bucket, handle.key)
  | .abort handle => (handle.bucket, handle.key)

/-- The error that a failure of a call becomes. -/
def errorOf (c : StoreCall) (f : ServiceFailure) : FsError :=
  let (bucket, key) := blamed c
  if f.codeOf.any fun code => code ∈ missingCodes then .notFound bucket key
  else .internal (.requestFailed (operationName c) bucket key)

/-- The page that the fields of a listing make; entries without a name are passed over. -/
def readPage (r : ListQuery) (f : ListFields) : ListPage :=
  { listed := r.listed
    delimiter := r.delimiter
    objects := f.contents.filterMap fun o =>
      o.key.map fun key => ⟨key, readSize o.size, readTime o.lastModified, o.etag⟩
    commonPrefixes := f.commonPrefixes.filterMap id
    nextToken := f.nextToken
    truncated := f.truncated == some true }

/-- The value that the fields of an answer make. -/
def readFields : (c : StoreCall) → Fields c → Result c.Value
  | .head _ key, f =>
    .ok ⟨key, readSize f.contentLength, readTime f.lastModified, readHeader f.etag⟩
  | .list r, f => .ok (readPage r f)
  | .get _ _ _, body => .ok body
  | .put _ _ _ _, etag => .ok ((readHeader etag).getD "")
  | .delete _ _, f => .ok f
  | .copy _ _ _ _ _, f => .ok f
  | .buckets, names => .ok (names.filterMap id)
  | .initiate bucket key _, id =>
    match id with
    | some id => .ok ⟨bucket, key, id⟩
    | none => .error (.internal .noUploadId)
  | .uploadPart _ number _ _, etag =>
    match readHeader etag with
    | some etag => .ok etag
    | none => .error (.internal (.noEtag "UploadPart" number))
  | .copyPart _ number _ _ _, etag =>
    match etag with
    | some etag => .ok etag
    | none => .error (.internal (.noEtag "UploadPartCopy" number))
  | .complete _ _, f => .ok f
  | .abort _, f => .ok f

/-- The answer to a call that the service's answer makes. -/
def readReply (c : StoreCall) : Reply c → Result c.Value
  | .error f => .error (errorOf c f)
  | .ok f => readFields c f

end BucketFs.Remote
