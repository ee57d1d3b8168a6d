import BucketFs.Call.Program
import BucketFs.Text.Separated

/-!
# What is at a key

A store knows objects, not directories.  A key that ends in the separator is a directory, and so is
a key under which others lie; every other object is a regular file.

`FileStatus.resolve` asks in this order: the bucket for the empty key, the object itself, the
marker object, and a listing of what lies under the key.
-/

namespace BucketFs

open BucketFs.Text

/-- What is known about an entry of a bucket. -/
structure FileStatus where
  key : String
  lastModified : Timestamp
  size : Nat
  isDirectory : Bool
  deriving DecidableEq, Repr

namespace FileStatus

/-- A regular file. -/
def file (key : String) (lastModified : Timestamp) (size : Nat) : FileStatus :=
  ⟨key, lastModified, size, false⟩

/-- A directory; its size is zero. -/
def directory (key : String) (lastModified : Timestamp) : FileStatus :=
  ⟨key, lastModified, 0, true⟩

/-- Whether the entry is a regular file: it is no directory. -/
def isFile (a : FileStatus) : Bool := !a.isDirectory

/-- The status that a key and the facts about its object make; without facts the time is the
epoch and the size zero. -/
def ofInfo (key : String) (info : Option ObjectInfo) : FileStatus :=
  let lastModified := info.elim Timestamp.epoch (·.lastModified)
  if endsInSeparator key then directory key lastModified
  else file key lastModified (info.elim 0 (·.size))

/-- The text of a truth value. -/
def renderBool (b : Bool) : String := if b then "true" else "false"

/-- A description of all parts. -/
def render (a : FileStatus) : String :=
  "S3FileAttributes \x7b key: " ++ a.key ++ ", last_modified: " ++ a.lastModified.render
    ++ ", size: " ++ toString a.size ++ ", is_directory: " ++ renderBool a.isDirectory
    ++ ", is_regular_file: " ++ renderBool a.isFile ++ " \x7d"

/-- The record of a status. -/
def toJson (a : FileStatus) : Json.Value :=
  .record [
    ("key", .ofText a.key), ("lastModified", .ofText a.lastModified.render),
    ("size", .ofWord a.size), ("isDirectory", .bool a.isDirectory)]

/-- The facts about an object, or nothing where it is missing. -/
def probe (through : Access) (bucket key : String) : Action (Option ObjectInfo) := do
  match ← Action.outcome (Action.ask through (.head bucket key)) with
  | .ok info => return some info
  | .error e => if e.isMissing then return none else throw e

/-- Resolves a key of a bucket; failures other than a missing object are passed on. -/
def resolve (through : Access) (bucket key : String) : Action FileStatus := do
  let base := trimEnd separator key
  if base = "" then
    let _ ← Action.ask through (.list { bucket, listed := "", maxKeys := 1 })
    return directory slash .epoch
  else
    let object ← if endsInSeparator key then pure none else probe through bucket base
    match object with
    | some info => return ofInfo base (some info)
    | none =>
      let marker := base ++ slash
      match ← probe through bucket marker with
      | some info => return ofInfo marker (some info)
      | none =>
        let page ← Action.ask through (.list { bucket, listed := marker, maxKeys := 1 })
        if page.isEmpty then throw (.notFound bucket key)
        else return ofInfo marker none

end FileStatus

end BucketFs
