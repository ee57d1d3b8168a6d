import BucketFs.Object.ByteRange
import BucketFs.Text.Quoted
import BucketFs.Transfer.Phase

/-!
# Errors

An error says what kind of failure it is and, where several causes share a kind, which cause it
has.  All wording is in the `message` functions of this module.
-/

namespace BucketFs

open BucketFs.Text

/-- Why an argument was refused. -/
inductive ArgumentFault where
  | uriWithoutScheme (uri : String)
  | foreignScheme (scheme : String)
  | uriWithoutAuthority (uri : String)
  | undecodableUri (uri : String)
  | malformedToken
  | undecodableToken
  | nameIndex (index : Nat)
  | window (first last count : Nat)
  | pathsOfTwoFileSystems
  | oneAbsolutePath (other base : String)
  | noConcurrency
  | noMaxKeys
  | unknownAcl (header : String)
  | noChunk
  | tooManyParts (count : Nat)
  | partNumberTooLarge (number : Nat)
  | noObject (path : String)
  | outsideBuckets (path : String)
  | unterminatedPrefix (listed : String)
  | rangeOutside (range : ByteRange) (size : Nat)
  | partNumberZero
  | partLength (number length : Nat) (range : ByteRange)
  | noParts
  | partOutOfOrder (number : Nat)
  | partNeverUploaded (number : Nat)
  | partEtag (number : Nat)
  | partOffset (number start expected : Nat)
  | ownSubtree (source target : String)
  | worded (text : String)
  deriving DecidableEq, Repr

/-- The wording of a refused argument. -/
def ArgumentFault.message : ArgumentFault → String
  | .uriWithoutScheme uri => "missing scheme in " ++ quoted uri
  | .foreignScheme scheme => "URI scheme must be s3, got " ++ quoted scheme
  | .uriWithoutAuthority uri => "missing authority in " ++ quoted uri
  | .undecodableUri uri => "invalid UTF-8 in " ++ quoted uri
  | .malformedToken => "Invalid continuation token"
  | .undecodableToken => "Continuation token contains invalid UTF-8"
  | .nameIndex index => s!"name index {index} is out of range"
  | .window first last count => s!"subpath {first}..{last} of a path with {count} names"
  | .pathsOfTwoFileSystems => "cannot relativize paths of different filesystems"
  | .oneAbsolutePath other base =>
    s!"cannot relativize {other} against {base}: only one path is absolute"
  | .noConcurrency => "max_concurrency must be greater than zero"
  | .noMaxKeys => "max_keys must be greater than zero"
  | .unknownAcl header => "unknown canned ACL: " ++ header
  | .noChunk => "chunk size must be positive to split a transfer"
  | .tooManyParts count => s!"{count} parts exceed the part number range"
  | .partNumberTooLarge number => s!"part number {number} too large"
  | .noObject path => path ++ " does not name an object"
  | .outsideBuckets path => path ++ " is not inside a bucket"
  | .unterminatedPrefix listed =>
    "directory prefix must end with " ++ quoted "/" ++ ": " ++ quoted listed
  | .rangeOutside range size => s!"range {range.render} outside object of {size} bytes"
  | .partNumberZero => "part numbers start at 1"
  | .partLength number length range =>
    s!"part {number} carries {length} bytes for range {range.render}"
  | .noParts => "a multipart upload needs at least one part"
  | .partOutOfOrder number => s!"part {number} is out of order"
  | .partNeverUploaded number => s!"part {number} was never uploaded"
  | .partEtag number => s!"ETag mismatch for part {number}"
  | .partOffset number start expected =>
    s!"part {number} starts at {start} but {expected} was expected"
  | .ownSubtree source target => s!"cannot copy {source} into its own subtree {target}"
  | .worded text => text

/-- What went wrong inside, in a store's answer or on the way to it. -/
inductive InternalFault where
  | truncatedWithoutToken (listed : String)
  | repeatedKey (key : String)
  | wrongTransition (uploadId : String) (source target : SessionPhase)
  | recordOutsideFlight (number : Nat) (phase : SessionPhase)
  | partNotPlanned (number : Nat)
  | partNumbersBroken (index : Nat)
  | partMisplaced (number : Nat) (range : ByteRange) (expected : Nat)
  | partUnrecorded (number : Nat)
  | partsShort (covered size : Nat)
  | fileStat (file : String)
  | fileRead (file : String)
  | fileOpen (file : String)
  | fileReadAt (file : String) (range : ByteRange)
  | requestFailed (operation bucket key : String)
  | noUploadId
  | noEtag (operation : String) (number : Nat)
  /-- A listing or a walk took more rounds than its caller allowed. -/
  | unfinished
  | worded (text : String)
  deriving DecidableEq, Repr

/-- The wording of an internal fault. -/
def InternalFault.message : InternalFault → String
  | .truncatedWithoutToken listed =>
    "truncated listing of prefix " ++ quoted listed ++ " carries no continuation token"
  | .repeatedKey key => "listing repeats key " ++ quoted key
  | .wrongTransition uploadId source target =>
    s!"multipart session {uploadId} cannot move from {source.name} to {target.name}"
  | .recordOutsideFlight number phase => s!"part {number} recorded while session is {phase.name}"
  | .partNotPlanned number => s!"part {number} was not planned"
  | .partNumbersBroken index => s!"part numbers are not contiguous at {index}"
  | .partMisplaced number range expected =>
    s!"part {number} covers {range.render} but {expected} was expected"
  | .partUnrecorded number => s!"part {number} has no ETag"
  | .partsShort covered size => s!"parts cover {covered} of {size} bytes"
  | .fileStat file => "failed to stat " ++ file
  | .fileRead file => "failed to read " ++ file
  | .fileOpen file => "failed to open " ++ file
  | .fileReadAt file range => s!"failed to read {file} at {range.render}"
  | .requestFailed operation bucket key => s!"{operation} on s3://{bucket}/{key} failed"
  | .noUploadId => "CreateMultipartUpload returned no upload id"
  | .noEtag operation number => s!"{operation} {number} returned no ETag"
  | .unfinished => "the walk took more rounds than allowed"
  | .worded text => text

/-- An operation that no object store offers. -/
inductive UnsupportedOperation where
  | removeFromStream
  | makeBucket
  | deleteBucket
  | remove
  deriving DecidableEq, Repr

/-- The name of an operation that is not offered. -/
def UnsupportedOperation.name : UnsupportedOperation → String
  | .removeFromStream => "DirectoryStream::remove"
  | .makeBucket => "create bucket"
  | .deleteBucket => "delete bucket"
  | .remove => "remove"

/-- A failure of the library. -/
inductive FsError where
  /-- The bucket or the key does not exist; the key is empty for a missing bucket. -/
  | notFound (bucket key : String)
  /-- Something is at the target and may not be replaced. -/
  | alreadyExists (target : String)
  | invalidArgument (fault : ArgumentFault)
  | directoryNotEmpty (path : String)
  /-- A multipart session was aborted because of `source`. -/
  | transferFailed (key uploadId : String) (source : FsError)
  | unsupported (operation : UnsupportedOperation)
  | fileSystemNotFound (uri : String)
  | closedFileSystem (uri : String)
  | internal (fault : InternalFault)
  /-- A sum or a difference is no position.  This is the end of the program and no answer of an
  operation: what looks at a failure plans no transfer in what it looks at. -/
  | overflow
  deriving DecidableEq, Repr

namespace FsError

/-- The wording of an error. -/
def message : FsError → String
  | .notFound bucket key => s!"No such file: s3://{bucket}/{key}"
  | .alreadyExists target => "File already exists: " ++ target
  | .invalidArgument fault => "Invalid argument: " ++ fault.message
  | .directoryNotEmpty path => "Directory not empty: " ++ path
  | .transferFailed key uploadId _ =>
    s!"Multipart transfer to {key} failed (upload id {uploadId})"
  | .unsupported operation => "Unsupported operation: " ++ operation.name
  | .fileSystemNotFound uri => "Filesystem not found: " ++ uri
  | .closedFileSystem uri => "Filesystem is closed: " ++ uri
  | .internal fault => fault.message
  | .overflow => "a position is out of range"

/-- The name of the kind of an error. -/
def kind : FsError → String
  | .notFound _ _ => "NotFound"
  | .alreadyExists _ => "AlreadyExists"
  | .invalidArgument _ => "InvalidArgument"
  | .directoryNotEmpty _ => "DirectoryNotEmpty"
  | .transferFailed _ _ _ => "TransferFailed"
  | .unsupported _ => "Unsupported"
  | .fileSystemNotFound _ => "FileSystemNotFound"
  | .closedFileSystem _ => "ClosedFileSystem"
  | .internal _ => "Internal"
  | .overflow => "Overflow"

/-- Whether the error reports a missing bucket or key. -/
def isMissing : FsError → Bool
  | .notFound _ _ => true
  | _ => false

/-- The failure behind an error, where it is kept apart. -/
def cause? : FsError → Option FsError
  | .transferFailed _ _ source => some source
  | _ => none

end FsError

/-- A result or an error of the library. -/
abbrev Result (α : Type) := Except FsError α

end BucketFs
