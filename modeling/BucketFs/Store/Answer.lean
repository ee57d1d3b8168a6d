import BucketFs.Call.Program
import BucketFs.Store.Page

/-!
# How a store in memory answers

Each call has an operation here that gives the answer and the store after it.  `Store.answer` puts
them together, and `Store.handler` lets a program run over a single store.
-/

namespace BucketFs

namespace Store

/-- Finds an object; a missing bucket is reported with an empty key. -/
def find (s : Store) (bucket key : String) : Result ObjectRecord :=
  match s.bucket? bucket with
  | none => .error (.notFound bucket "")
  | some b =>
    match b.get? key with
    | none => .error (.notFound bucket key)
    | some o => .ok o

/-- Writes an object into an existing bucket. -/
def write (s : Store) (bucket key : String) (o : ObjectRecord) : Result Unit × Store :=
  match s.bucket? bucket with
  | none => (.error (.notFound bucket ""), s)
  | some b => (.ok (), s.setBucket bucket (b.insert key o))

/-- The facts about an object. -/
def head (s : Store) (bucket key : String) : Result ObjectInfo :=
  (s.find bucket key).map (·.info key)

/-- The content of an object or of a range within it. -/
def get (s : Store) (bucket key : String) (range : Option ByteRange) : Result Bytes :=
  match s.find bucket key with
  | .error e => .error e
  | .ok o =>
    match range with
    | none => .ok o.data
    | some r =>
      if r.start > r.stop ∨ r.stop > o.data.length then
        .error (.invalidArgument (.rangeOutside r o.data.length))
      else .ok (o.data.slice r.start r.stop)

/-- Writes a content under its digest. -/
def put (s : Store) (bucket key : String) (data : Bytes) (acl : Option Acl) :
    Result String × Store :=
  let etag := Etag.ofContent data
  match s.write bucket key (s.stamp data etag (acl.getD .byDefault)) with
  | (.ok _, s) => (.ok etag, s)
  | (.error e, s) => (.error e, s)

/-- Removes an object, if it is there. -/
def delete (s : Store) (bucket key : String) : Result Unit × Store :=
  match s.bucket? bucket with
  | none => (.error (.notFound bucket ""), s)
  | some b => (.ok (), s.setBucket bucket (b.erase key))

/-- Copies content and entity tag; the access setting is the one asked for. -/
def copy (s : Store) (sourceBucket sourceKey bucket key : String) (acl : Option Acl) :
    Result Unit × Store :=
  match s.find sourceBucket sourceKey with
  | .error e => (.error e, s)
  | .ok o => s.write bucket key (s.stamp o.data o.etag (acl.getD .byDefault))

/-- The upload id of the session with the given number: 32 hexadecimal digits. -/
def uploadId (number : Nat) : String :=
  let ds := Nat.toDigits 16 number
  String.ofList (List.replicate (32 - ds.length) '0' ++ ds)

/-- Opens a session for an object of an existing bucket. -/
def initiate (s : Store) (bucket key : String) (acl : Option Acl) :
    Result UploadHandle × Store :=
  match s.bucket? bucket with
  | none => (.error (.notFound bucket ""), s)
  | some _ =>
    let id := uploadId s.opened
    (.ok ⟨bucket, key, id⟩,
      { s with
        uploads := s.uploads.insert id { bucket, key, acl := acl.getD .byDefault }
        opened := s.opened + 1 })

/-- Keeps a part of an open session.  Its number and length are checked before its session. -/
def keepPart (s : Store) (handle : UploadHandle) (number : Nat) (range : ByteRange)
    (data : Bytes) : Result String × Store :=
  if number = 0 then (.error (.invalidArgument .partNumberZero), s)
  else if range.stop - range.start ≠ data.length then
    (.error (.invalidArgument (.partLength number data.length range)), s)
  else
    match s.uploads.get? handle.uploadId with
    | none => (.error (.notFound handle.bucket handle.key), s)
    | some u =>
      let etag := Etag.ofContent data
      let uploads := s.uploads.insert handle.uploadId (u.setPart number ⟨range, data, etag⟩)
      (.ok etag, { s with uploads })

/-- Fills a part with a range of an object. -/
def copyPart (s : Store) (handle : UploadHandle) (number : Nat) (range : ByteRange)
    (sourceBucket sourceKey : String) : Result String × Store :=
  match s.get sourceBucket sourceKey (some range) with
  | .error e => (.error e, s)
  | .ok data => s.keepPart handle number range data

/-- The stored parts that a list names.  The list must ascend from above `previous`, carry the tag
of each part, and reach each part's start with the part before it. -/
def selectParts (u : OpenSession) : Nat → Nat → List FinishedPart → Result (List SentPart)
  | _, _, [] => .ok []
  | previous, offset, p :: rest =>
    if p.number ≤ previous then .error (.invalidArgument (.partOutOfOrder p.number))
    else
      match u.part? p.number with
      | none => .error (.invalidArgument (.partNeverUploaded p.number))
      | some part =>
        if Etag.unquoted part.etag ≠ Etag.unquoted p.etag then
          .error (.invalidArgument (.partEtag p.number))
        else if part.range.start ≠ offset then
          .error (.invalidArgument (.partOffset p.number part.range.start offset))
        else (selectParts u p.number part.range.stop rest).map (part :: ·)

/-- The content and the tag that a part list assembles. -/
def assemble (u : OpenSession) (parts : List FinishedPart) : Result (Bytes × String) :=
  if parts = [] then .error (.invalidArgument .noParts)
  else
    (selectParts u 0 0 parts).map fun chosen =>
      (chosen.flatMap (·.data), Etag.ofParts (chosen.map (·.etag)))

/-- Assembles the object of a session and closes the session; a list that is refused leaves the
session open. -/
def complete (s : Store) (handle : UploadHandle) (parts : List FinishedPart) :
    Result Unit × Store :=
  match s.uploads.get? handle.uploadId with
  | none => (.error (.notFound handle.bucket handle.key), s)
  | some u =>
    match assemble u parts with
    | .error e => (.error e, s)
    | .ok (data, etag) =>
      { s with uploads := s.uploads.erase handle.uploadId }.write u.bucket u.key
        (s.stamp data etag u.acl)

/-- Discards a session. -/
def abort (s : Store) (handle : UploadHandle) : Result Unit × Store :=
  match s.uploads.get? handle.uploadId with
  | none => (.error (.notFound handle.bucket handle.key), s)
  | some _ => (.ok (), { s with uploads := s.uploads.erase handle.uploadId })

/-- The answer to a call and the store after it. -/
def answer : (c : StoreCall) → Store → Result c.Value × Store
  | .head bucket key, s => (s.head bucket key, s)
  | .list request, s => (s.list request, s)
  | .get bucket key range, s => (s.get bucket key range, s)
  | .put bucket key data acl, s => s.put bucket key data acl
  | .delete bucket key, s => s.delete bucket key
  | .copy sourceBucket sourceKey bucket key acl, s => s.copy sourceBucket sourceKey bucket key acl
  | .buckets, s => (.ok s.buckets.keys, s)
  | .initiate bucket key acl, s => s.initiate bucket key acl
  | .uploadPart handle number range data, s => s.keepPart handle number range data
  | .copyPart handle number range sourceBucket sourceKey, s =>
    s.copyPart handle number range sourceBucket sourceKey
  | .complete handle parts, s => s.complete handle parts
  | .abort handle, s => s.abort handle

/-- Answers every store call from one store, and file calls from one file. -/
def handler : Handler (Store × LocalFile)
  | .store _ c, (store, file) => ((store.answer c).1, ((store.answer c).2, file))
  | .file c, (store, file) => (file.answer c, (store, file))

end Store

end BucketFs
