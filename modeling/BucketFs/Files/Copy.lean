import BucketFs.Files.Basic

/-!
# Copying and moving

A file is copied by its store when both paths belong to one filesystem, and otherwise read and
uploaded.  A directory is copied as an empty marker; `Files.copyAll` copies what is inside as well.
-/

namespace BucketFs

/-- How an entry is copied. -/
structure CopyMode where
  /-- Something at the target may be replaced. -/
  replaceExisting : Bool := false
  /-- Accepted and without effect: a store copies what it keeps about an object. -/
  copyAttributes : Bool := false
  /-- The chunk size in place of that of the target's filesystem. -/
  chunkSize : Option Nat := none
  acl : Option Acl := none
  deriving DecidableEq, Repr

namespace Files

/-- Makes way for an entry of the given kind at a target.  What is there must be replaceable; a
directory must be empty, and an entry of the other kind is deleted. -/
def clearTarget (f : Files) (target : Path) (replace isDirectory : Bool) : Action Unit := do
  match ← Action.outcome (f.status target) with
  | .error e => if e.isMissing then return () else throw e
  | .ok found =>
    if !replace then throw (.alreadyExists target.render)
    if found.isDirectory then f.ensureEmpty target
    if found.isDirectory ≠ isDirectory then f.unlink target found.isDirectory

/-- Copies a file, or a directory as an empty marker. -/
def copy (f : Files) (source target : Path) (options : CopyMode) : Action Unit := do
  if source = target then return ()
  let found ← f.status source
  let (fs, bucket, key) ← Action.ofResult (f.locate target)
  f.clearTarget target options.replaceExisting found.isDirectory
  if found.isDirectory then
    let _ ← Action.ask fs.access (.put bucket (insidePrefix key) [] options.acl)
  else
    let transfer : TransferOptions :=
      { fs.transferOptions with chunkSize := options.chunkSize.getD fs.transferOptions.chunkSize }
    if source.fs = target.fs then
      let _ ← Transfer.copy fs.access f.schedule source target options.acl transfer
    else
      let data ← f.read source
      let _ ← Transfer.upload fs.access f.schedule data target options.acl transfer

/-- Copies an entry and deletes the source.  A directory must be empty. -/
def move (f : Files) (source target : Path) (options : CopyMode) : Action Unit := do
  if source = target then return ()
  let found ← f.status source
  if found.isDirectory then f.ensureEmpty source
  f.copy source target options
  f.delete source

/-- Copies the entries of a work list, the last one first, and counts the files among them. -/
def copyPending (f : Files) (options : CopyMode) :
    (rounds : Nat) → (pending : List (Path × Path)) → (files : Nat) → Action Nat
  | _, [], files => return files
  | 0, _ :: _, _ => throw (.internal .unfinished)
  | rounds + 1, (source, target) :: pending, files => do
    let found ← f.status source
    if !found.isDirectory then
      f.copy source target options
      f.copyPending options rounds pending (files + 1)
    else
      if !(← f.exists? target) then f.makeDirectory target
      let stream ← Action.ofResult (f.children source)
      let inside ← stream.collect f.rounds
      let work := inside.filterMap fun child =>
        child.lastName?.map fun name => (child, target.resolve name)
      f.copyPending options rounds (work.reverse ++ pending) files

/-- Copies a tree entry by entry and counts its files.  A tree is not copied into itself; a failure
leaves what was copied before it. -/
def copyAll (f : Files) (source target : Path) (options : CopyMode) : Action Nat := do
  if target.normalize.startsWith source.normalize then
    throw (.invalidArgument (.ownSubtree source.render target.render))
  f.copyPending options f.rounds [(source, target)] 0

end Files

end BucketFs
