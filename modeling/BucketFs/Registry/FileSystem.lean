import BucketFs.Call.Program
import BucketFs.Location.Path
import BucketFs.Location.Uri
import BucketFs.Settings
import BucketFs.Transfer.Plan

/-!
# Filesystems

A filesystem joins an endpoint and a credential identity to the access of a store.  It is open until
it is closed, and a closed one stays closed.
-/

namespace BucketFs

open BucketFs.Text

/-- What tells open filesystems apart: the host of the endpoint and the access key. -/
structure FsKey where
  host : String
  accessKey : String
  deriving DecidableEq, Repr

namespace FsKey

/-- The key of a host under the credentials of its settings. -/
def ofSettings (host : String) (c : Settings) : FsKey := ⟨host, c.identity⟩

/-- The URI of the root. -/
def uri (k : FsKey) : String := scheme ++ "://" ++ k.host ++ slash

/-- A description of all parts. -/
def describe (k : FsKey) : String :=
  "FileSystemKey \x7b scheme: " ++ quoted scheme ++ ", host: " ++ quoted k.host
    ++ ", access_key: " ++ quoted k.accessKey ++ " \x7d"

end FsKey

/-- A filesystem as it stands at present. -/
structure FileSystem where
  id : FsId
  key : FsKey
  settings : Settings
  access : Access
  isOpen : Bool
  deriving DecidableEq, Repr

namespace FileSystem

/-- The URI of the root. -/
def uri (fs : FileSystem) : String := fs.key.uri

/-- Refuses a closed filesystem. -/
def checkOpen (fs : FileSystem) : Result Unit :=
  if fs.isOpen then .ok () else .error (.closedFileSystem fs.uri)

/-- The transfer options of the settings. -/
def transferOptions (fs : FileSystem) : TransferOptions := .ofSettings fs.settings

/-- The path that texts write. -/
def path (fs : FileSystem) (first : String) (more : List String) : Path :=
  .parse fs.id first more

/-- The root directories: one for each bucket. -/
def roots (fs : FileSystem) : Action (List Path) := do
  Action.ofResult fs.checkOpen
  let buckets ← Action.ask fs.access .buckets
  return buckets.map fun b => .ofBucketKey fs.id b ""

/-- A description, given that of the store. -/
def describe (fs : FileSystem) (store : String) : String :=
  "S3FileSystem \x7b key: " ++ fs.key.describe ++ ", storage: " ++ store ++ ", closed: "
    ++ (if fs.isOpen then "false" else "true") ++ ", .. \x7d"

end FileSystem

end BucketFs
