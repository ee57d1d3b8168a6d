import BucketFs.Bytes.Basic
import BucketFs.Listing.Page
import BucketFs.Object.Acl
import BucketFs.Transfer.Upload

/-!
# Calls to an object store

What the library asks of a store, as data.  A call is answered by a value of its own type or by an
error.
-/

namespace BucketFs

/-- One request to an object store. -/
inductive StoreCall where
  /-- The facts about an object. -/
  | head (bucket key : String)
  /-- A page of a listing. -/
  | list (request : ListQuery)
  /-- The content of an object, or a part of it. -/
  | get (bucket key : String) (range : Option ByteRange)
  /-- Writes an object; answered by its entity tag. -/
  | put (bucket key : String) (data : Bytes) (acl : Option Acl)
  /-- Removes an object; a missing one is no error. -/
  | delete (bucket key : String)
  /-- Copies an object within the store. -/
  | copy (sourceBucket sourceKey bucket key : String) (acl : Option Acl)
  /-- The names of all buckets. -/
  | buckets
  /-- Opens a multipart session for an object. -/
  | initiate (bucket key : String) (acl : Option Acl)
  /-- Sends the bytes of one part; answered by its entity tag. -/
  | uploadPart (handle : UploadHandle) (number : Nat) (range : ByteRange) (data : Bytes)
  /-- Fills one part from an object of the store; answered by its entity tag. -/
  | copyPart (handle : UploadHandle) (number : Nat) (range : ByteRange)
      (sourceBucket sourceKey : String)
  /-- Assembles the listed parts into the object. -/
  | complete (handle : UploadHandle) (parts : List FinishedPart)
  /-- Discards a session and its parts. -/
  | abort (handle : UploadHandle)
  deriving DecidableEq, Repr

/-- The type of what a call that succeeds is answered by. -/
abbrev StoreCall.Value : StoreCall → Type
  | .head _ _ => ObjectInfo
  | .list _ => ListPage
  | .get _ _ _ => Bytes
  | .put _ _ _ _ => String
  | .delete _ _ => Unit
  | .copy _ _ _ _ _ => Unit
  | .buckets => List String
  | .initiate _ _ _ => UploadHandle
  | .uploadPart _ _ _ _ => String
  | .copyPart _ _ _ _ _ => String
  | .complete _ _ => Unit
  | .abort _ => Unit

end BucketFs
