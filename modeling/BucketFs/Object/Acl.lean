import BucketFs.Error
import BucketFs.Json.Value

/-!
# Canned access control

The coarse access settings that a store knows by name.  Each has a header spelling and a name in
stored records.
-/

namespace BucketFs

/-- A predefined access setting. -/
inductive Acl where
  /-- Only the owner has access. -/
  | restricted
  /-- Everybody may read. -/
  | publicRead
  /-- Everybody may read and write. -/
  | publicReadWrite
  /-- Every authenticated user may read. -/
  | authenticatedRead
  /-- The owner of the bucket may read. -/
  | bucketOwnerRead
  /-- The owners of the object and of the bucket have full access. -/
  | bucketOwnerFullControl
  deriving DecidableEq, Repr

namespace Acl

/-- All settings. -/
def all : List Acl :=
  [.restricted, .publicRead, .publicReadWrite, .authenticatedRead, .bucketOwnerRead,
   .bucketOwnerFullControl]

/-- The setting of an object for which none was asked. -/
def byDefault : Acl := .restricted

/-- The header spelling. -/
def header : Acl → String
  | .restricted => "private"
  | .publicRead => "public-read"
  | .publicReadWrite => "public-read-write"
  | .authenticatedRead => "authenticated-read"
  | .bucketOwnerRead => "bucket-owner-read"
  | .bucketOwnerFullControl => "bucket-owner-full-control"

/-- The name in stored records. -/
def recordName : Acl → String
  | .restricted => "Private"
  | .publicRead => "PublicRead"
  | .publicReadWrite => "PublicReadWrite"
  | .authenticatedRead => "AuthenticatedRead"
  | .bucketOwnerRead => "BucketOwnerRead"
  | .bucketOwnerFullControl => "BucketOwnerFullControl"

/-- Reads a header spelling. -/
def ofHeader (s : String) : Result Acl :=
  match all.find? (fun a => a.header == s) with
  | some a => .ok a
  | none => .error (.invalidArgument (.unknownAcl s))

/-- Reads a name, or an object with the name as its only member and `null` as the value. -/
def ofJson? : Json.Value → Option Acl
  | .text (some s) => all.find? (fun a => a.recordName == s)
  | .object [(some s, .null)] => all.find? (fun a => a.recordName == s)
  | _ => none

end Acl

end BucketFs
