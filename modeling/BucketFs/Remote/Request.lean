import BucketFs.Call.Store
import BucketFs.Text.Percent
import BucketFs.Text.Separated

/-!
# Requests to a remote service

A store call becomes at most one request.  A request is kept in parts, so that what it asks for can
be read off: the method, the object it is about, the query, the headers, and the part list of a
completion.
-/

namespace BucketFs.Remote

open BucketFs.Text

/-- The method of a request. -/
inductive Method where
  | head
  | get
  | put
  | delete
  | post
  deriving DecidableEq, Repr

/-- The name of a method. -/
def Method.name : Method → String
  | .head => "HEAD"
  | .get => "GET"
  | .put => "PUT"
  | .delete => "DELETE"
  | .post => "POST"

/-- What a request is about. -/
inductive Subject where
  | service
  | bucket (bucket : String)
  | object (bucket key : String)
  deriving DecidableEq, Repr

/-- The bucket that a request is about, if it is about one. -/
def Subject.bucket? : Subject → Option String
  | .service => none
  | .bucket b => some b
  | .object b _ => some b

/-- The key that a request is about; it is empty where there is none. -/
def Subject.key : Subject → String
  | .service => ""
  | .bucket _ => ""
  | .object _ k => k

/-- A request before it is routed and signed. -/
structure Request where
  method : Method
  subject : Subject
  query : List (String × String) := []
  headers : List (String × String) := []
  /-- The parts listed by a completion. -/
  parts : Option (List FinishedPart) := none
  deriving DecidableEq, Repr

/-- The header that names a copied object. -/
def copySource : String := "x-amz-copy-source"

/-- Whether a request copies an object or a part of one. -/
def Request.isCopy (r : Request) : Bool := (r.headers.lookup copySource).isSome

/-- Whether a request copies a part. -/
def Request.isPartCopy (r : Request) : Bool := r.isCopy && (r.query.lookup "uploadId").isSome

/-- The limit below which the service numbers parts and counts entries: `2 ^ 31`. -/
def countLimit : Nat := 2147483648

/-- The header of a range: its first and its last position. -/
def rangeText (r : ByteRange) : String := s!"bytes={r.start}-{r.stop - 1}"

/-- The bytes of a key that a copy source holds verbatim. -/
def isSourceVerbatim (b : UInt8) : Bool :=
  (0x30 ≤ b && b ≤ 0x39) || (0x41 ≤ b && b ≤ 0x5a) || (0x61 ≤ b && b ≤ 0x7a)
    || b == 0x2f || b == 0x2d || b == 0x5f || b == 0x2e || b == 0x7e

/-- The value of the header that names a copied object. -/
def sourceText (bucket key : String) : String :=
  bucket ++ slash ++ Percent.encode isSourceVerbatim key

/-- The header of an access setting, if one is asked for. -/
def aclHeader (acl : Option Acl) : List (String × String) :=
  acl.toList.map fun a => ("x-amz-acl", a.header)

/-- A part number, if the service has it. -/
def checkNumber (number : Nat) : Result Unit :=
  if number < countLimit then .ok () else .error (.invalidArgument (.partNumberTooLarge number))

/-- A query parameter that is sent when it has a value. -/
def optionalQuery (name : String) (value : Option String) : List (String × String) :=
  value.toList.map fun v => (name, v)

/-- The parameters of a request about a part. -/
def partQuery (handle : UploadHandle) (number : Nat) : List (String × String) :=
  [("partNumber", toString number), ("uploadId", handle.uploadId)]

/-- The request of a call; a read of an empty range needs none. -/
def requestOf : StoreCall → Result (Option Request)
  | .head bucket key => .ok (some { method := .head, subject := .object bucket key })
  | .list r =>
    .ok (some {
      method := .get
      subject := .bucket r.bucket
      query := [("prefix", r.listed), ("max-keys", toString (min r.maxKeys (countLimit - 1)))]
        ++ optionalQuery "delimiter" r.delimiter ++ optionalQuery "continuation-token" r.token })
  | .get bucket key range =>
    match range with
    | none => .ok (some { method := .get, subject := .object bucket key })
    | some r =>
      if r.start ≥ r.stop then .ok none
      else
        .ok (some { method := .get, subject := .object bucket key,
                    headers := [("range", rangeText r)] })
  | .put bucket key _ acl =>
    .ok (some { method := .put, subject := .object bucket key, headers := aclHeader acl })
  | .delete bucket key => .ok (some { method := .delete, subject := .object bucket key })
  | .copy sourceBucket sourceKey bucket key acl =>
    .ok (some {
      method := .put
      subject := .object bucket key
      headers := (copySource, sourceText sourceBucket sourceKey) :: aclHeader acl })
  | .buckets => .ok (some { method := .get, subject := .service })
  | .initiate bucket key acl =>
    .ok (some { method := .post, subject := .object bucket key, headers := aclHeader acl })
  | .uploadPart handle number _ _ => do
    checkNumber number
    .ok (some { method := .put, subject := .object handle.bucket handle.key,
                query := partQuery handle number })
  | .copyPart handle number range sourceBucket sourceKey => do
    checkNumber number
    .ok (some {
      method := .put
      subject := .object handle.bucket handle.key
      query := partQuery handle number
      headers :=
        [(copySource, sourceText sourceBucket sourceKey),
         ("x-amz-copy-source-range", rangeText range)] })
  | .complete handle parts => do
    parts.forM fun p => checkNumber p.number
    .ok (some { method := .post, subject := .object handle.bucket handle.key,
                query := [("uploadId", handle.uploadId)], parts := some parts })
  | .abort handle =>
    .ok (some { method := .delete, subject := .object handle.bucket handle.key,
                query := [("uploadId", handle.uploadId)] })

end BucketFs.Remote
