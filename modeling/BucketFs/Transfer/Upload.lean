/-!
# Multipart sessions as a store sees them
-/

namespace BucketFs

/-- The identity of a session that a store opened. -/
structure UploadHandle where
  bucket : String
  key : String
  uploadId : String
  deriving DecidableEq, Repr

/-- A part as it is listed when a session is completed. -/
structure FinishedPart where
  number : Nat
  etag : String
  deriving DecidableEq, Repr

end BucketFs
