import BucketFs.Json.Value
import BucketFs.Time.Rfc3339

/-!
# What a store tells about an object
-/

namespace BucketFs

/-- The facts about one object that a probe or a listing reports. -/
structure ObjectInfo where
  key : String
  size : Nat
  lastModified : Timestamp
  etag : Option String
  deriving DecidableEq, Repr

namespace ObjectInfo

/-- The members of a stored record, in order. -/
def fieldNames : List String := ["key", "size", "lastModified", "etag"]

/-- The record of an object; a missing entity tag is left out. -/
def toJson (o : ObjectInfo) : Json.Value :=
  .record <|
    [("key", .ofText o.key), ("size", .ofWord o.size),
     ("lastModified", .ofText o.lastModified.render)]
    ++ o.etag.toList.map fun etag => ("etag", .ofText etag)

/-- Reads a stored record; only the entity tag may be left out. -/
def ofJson? (v : Json.Value) : Option ObjectInfo := do
  match ← v.fields? fieldNames with
  | [key, size, lastModified, etag] =>
    some {
      key := ← key.bind (·.asText?)
      size := ← size.bind (·.asWord?)
      lastModified := ← (lastModified.bind (·.asText?)).bind Time.Rfc3339.parse?
      etag := ← (etag.getD .null).asOptionalText? }
  | _ => none

end ObjectInfo

end BucketFs
