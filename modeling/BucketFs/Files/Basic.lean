import BucketFs.Directory.Children
import BucketFs.Directory.Status
import BucketFs.Transfer.Run

/-!
# File operations

Reading, writing, creating and deleting by path.  Each operation looks up the filesystem of its
path, and all but the reading of a whole file refuse a closed one.
-/

namespace BucketFs

open BucketFs.Text

/-- What file operations work with: the filesystems as they stand, the schedule of part transfers,
and a bound on the rounds of a walk. -/
structure Files where
  fileSystems : List FileSystem
  schedule : Schedule := .inOrder
  rounds : Nat

namespace Files

/-- The filesystem of a path. -/
def fileSystem (f : Files) (p : Path) : Result FileSystem :=
  match f.fileSystems.find? fun fs => fs.id == p.fs with
  | some fs => .ok fs
  | none => .error (.fileSystemNotFound p.render)

/-- The filesystem of a path, if it is open. -/
def openFileSystem (f : Files) (p : Path) : Result FileSystem := do
  let fs ← f.fileSystem p
  fs.checkOpen
  .ok fs

/-- The open filesystem, the bucket and the key, possibly empty, of a path. -/
def locate (f : Files) (p : Path) : Result (FileSystem × String × String) := do
  let fs ← f.openFileSystem p
  match p.bucket? with
  | some bucket => .ok (fs, bucket, p.key)
  | none => .error (.invalidArgument (.outsideBuckets p.render))

/-- The prefix of all keys inside the directory at a key. -/
def insidePrefix (key : String) : String :=
  if key = "" then "" else trimEnd separator key ++ slash

/-- A stream over the children of a directory. -/
def children (f : Files) (dir : Path) : Result ChildStream := do
  let (fs, bucket, key) ← f.locate dir
  ChildStream.new fs bucket (insidePrefix key)

/-- The status of what is at a path. -/
def status (f : Files) (p : Path) : Action FileStatus := do
  let (fs, bucket, key) ← Action.ofResult (f.locate p)
  FileStatus.resolve fs.access bucket key

/-- Whether something is at a path. -/
def exists? (f : Files) (p : Path) : Action Bool := do
  match ← Action.outcome (f.status p) with
  | .ok _ => return true
  | .error e => if e.isMissing then return false else throw e

/-- The content of the file at a path. -/
def read (f : Files) (p : Path) : Action Bytes := do
  let (bucket, key) ← Action.ofResult (Transfer.objectAt p)
  let fs ← Action.ofResult (f.fileSystem p)
  Action.ask fs.access (.get bucket key none)

/-- Writes the content of the file at a path. -/
def write (f : Files) (p : Path) (data : Bytes) : Action Transferred := do
  let fs ← Action.ofResult (f.openFileSystem p)
  Transfer.upload fs.access f.schedule data p none fs.transferOptions

/-- Writes a local file to a path. -/
def uploadLocal (f : Files) (file : String) (p : Path) : Action Transferred := do
  let fs ← Action.ofResult (f.openFileSystem p)
  Transfer.uploadLocal fs.access f.schedule file p none fs.transferOptions

/-- Creates a directory by its marker object.  Buckets cannot be created. -/
def makeDirectory (f : Files) (dir : Path) : Action Unit := do
  let (fs, bucket, key) ← Action.ofResult (f.locate dir)
  if ← f.exists? dir then throw (.alreadyExists dir.render)
  if key = "" then throw (.unsupported .makeBucket)
  let _ ← Action.ask fs.access (.put bucket (insidePrefix key) [] none)

/-- Refuses a directory with anything inside but its own marker. -/
def ensureEmpty (f : Files) (dir : Path) : Action Unit := do
  let (fs, bucket, key) ← Action.ofResult (f.locate dir)
  let listed := insidePrefix key
  let page ← Action.ask fs.access
    (.list { bucket, listed, delimiter := some slash, maxKeys := 2 })
  if page.commonPrefixes ≠ [] ∨ page.keys.any (fun k => k ≠ listed) then
    throw (.directoryNotEmpty dir.render)

/-- Deletes the object behind an entry: the marker of a directory, the object of a file. -/
def unlink (f : Files) (p : Path) (isDirectory : Bool) : Action Unit := do
  let (fs, bucket, key) ← Action.ofResult (f.locate p)
  Action.ask fs.access (.delete bucket (if isDirectory then insidePrefix key else key))

/-- Deletes a file or an empty directory.  Buckets cannot be deleted. -/
def delete (f : Files) (p : Path) : Action Unit := do
  let (_, _, key) ← Action.ofResult (f.locate p)
  if key = "" then throw (.unsupported .deleteBucket)
  let found ← f.status p
  if found.isDirectory then f.ensureEmpty p
  f.unlink p found.isDirectory

/-- Deletes what is at a path, if anything is; whether something was. -/
def deleteAny (f : Files) (p : Path) : Action Bool := do
  match ← Action.outcome (f.delete p) with
  | .ok _ => return true
  | .error e => if e.isMissing then return false else throw e

end Files

end BucketFs
