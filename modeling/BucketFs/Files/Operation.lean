import BucketFs.Files.Copy

/-!
# File operations as data

`FileOperation` lists all operations by path with their arguments, and `Files.perform` is the action
of each.
-/

namespace BucketFs

/-- An operation by path, with its arguments. -/
inductive FileOperation where
  | status (p : Path)
  | exists? (p : Path)
  | children (dir : Path)
  | read (p : Path)
  | write (p : Path) (data : Bytes)
  | uploadLocal (file : String) (p : Path)
  | makeDirectory (dir : Path)
  | delete (p : Path)
  | deleteAny (p : Path)
  | copy (source target : Path) (options : CopyMode)
  | move (source target : Path) (options : CopyMode)
  | copyAll (source target : Path) (options : CopyMode)
  deriving DecidableEq, Repr

namespace FileOperation

/-- The type of what an operation that succeeds yields. -/
abbrev Value : FileOperation → Type
  | .status _ => FileStatus
  | .exists? _ => Bool
  | .children _ => ChildStream
  | .read _ => Bytes
  | .write _ _ => Transferred
  | .uploadLocal _ _ => Transferred
  | .makeDirectory _ => Unit
  | .delete _ => Unit
  | .deleteAny _ => Bool
  | .copy _ _ _ => Unit
  | .move _ _ _ => Unit
  | .copyAll _ _ _ => Nat

/-- The paths that an operation is given. -/
def paths : FileOperation → List Path
  | .status p | .exists? p | .children p | .read p | .write p _ | .uploadLocal _ p
  | .makeDirectory p | .delete p | .deleteAny p => [p]
  | .copy source target _ | .move source target _ | .copyAll source target _ => [source, target]

/-- Whether an operation copies or moves a path onto itself, which does nothing. -/
def OntoItself : FileOperation → Prop
  | .copy source target _ | .move source target _ => source = target
  | _ => False

end FileOperation

/-- The action of an operation. -/
def Files.perform (f : Files) : (op : FileOperation) → Action op.Value
  | .status p => f.status p
  | .exists? p => f.exists? p
  | .children dir => Action.ofResult (f.children dir)
  | .read p => f.read p
  | .write p data => f.write p data
  | .uploadLocal file p => f.uploadLocal file p
  | .makeDirectory dir => f.makeDirectory dir
  | .delete p => f.delete p
  | .deleteAny p => f.deleteAny p
  | .copy source target options => f.copy source target options
  | .move source target options => f.move source target options
  | .copyAll source target options => f.copyAll source target options

end BucketFs
