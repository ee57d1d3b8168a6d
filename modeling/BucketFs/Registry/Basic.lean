import BucketFs.Files.Copy

/-!
# The registry

A registry opens filesystems and lists those that are open, one for each key.  The store of a new
filesystem is made by a factory, and a factory may itself use the registry while it works:
`FactoryRun` is what one call of a factory does.

* `Registry.openFileSystem`, `Registry.find`, `Registry.openPath` and `Registry.close` are its
  operations.
-/

namespace BucketFs

/-- A registry: its base settings, all filesystems it knows, those that are open, and the stores
asked for so far. -/
structure Registry where
  base : Settings
  /-- Every filesystem that was ever made, at the place of its number. -/
  fileSystems : List FileSystem := []
  /-- The open filesystems by their keys, the latest last. -/
  entries : List (FsKey × FsId) := []
  /-- The hosts and settings that stores were asked for, the latest last. -/
  requests : List (String × Settings) := []
  deriving DecidableEq, Repr

/-- What a factory does when it is asked for a store: it fails or hands out a store, possibly after
operations on the registry that it goes on from.  An opening carries what the factory does when
that opening asks it in turn. -/
inductive FactoryRun where
  | result (r : Result StoreId)
  | openFileSystem (uri : String) (env : Environment) (inner : String → Settings → FactoryRun)
      (next : Result FsId → FactoryRun)
  | find (uri : String) (next : Result FsId → FactoryRun)
  | openPath (uri : String) (inner : String → Settings → FactoryRun)
      (next : Result Path → FactoryRun)
  | close (fs : FsId) (next : FactoryRun)

/-- Makes the stores of filesystems, by host and settings. -/
abbrev Factory := String → Settings → FactoryRun

/-- The factory that hands out one store to every filesystem. -/
def Factory.constant (store : StoreId) : Factory := fun _ _ => .result (.ok store)

namespace Registry

/-- A registry that knows no filesystem. -/
def new (base : Settings) : Registry := { base }

/-- A filesystem by its number. -/
def fileSystem? (reg : Registry) (id : FsId) : Option FileSystem := reg.fileSystems[id]?

/-- The number of registered filesystems. -/
def size (reg : Registry) : Nat := reg.entries.length

/-- The registered filesystem of a key. -/
def get? (reg : Registry) (key : FsKey) : Option FsId := reg.entries.lookup key

/-- Makes a filesystem, which is open. -/
def addFileSystem (reg : Registry) (key : FsKey) (settings : Settings) (store : StoreId) :
    FsId × Registry :=
  let id := reg.fileSystems.length
  (id, { reg with fileSystems := reg.fileSystems ++ [⟨id, key, settings, ⟨id, store⟩, true⟩] })

/-- A filesystem that is not an entry. -/
def standalone (reg : Registry) (endpoint : String) (settings : Settings) (store : StoreId) :
    FsId × Registry :=
  reg.addFileSystem (.ofSettings endpoint settings) settings store

/-- Opens a filesystem, given how the factory acts.  The entries are looked at before the factory
is asked and again after it has answered. -/
def openWith (reg : Registry) (uri : String) (env : Environment)
    (create : String → Settings → Registry → Result StoreId × Registry) : Result FsId × Registry :=
  match Uri.parse uri with
  | .error e => (.error e, reg)
  | .ok parsed =>
    let settings := reg.base.overlay env
    match settings.check with
    | .error e => (.error e, reg)
    | .ok _ =>
      let key := FsKey.ofSettings parsed.host settings
      match reg.get? key with
      | some _ => (.error (.alreadyExists key.uri), reg)
      | none =>
        let asked := { reg with requests := reg.requests ++ [(parsed.host, settings)] }
        match create parsed.host settings asked with
        | (.error e, reg) => (.error e, reg)
        | (.ok store, reg) =>
          match reg.get? key with
          | some _ => (.error (.alreadyExists key.uri), reg)
          | none =>
            let (id, reg) := reg.addFileSystem key settings store
            (.ok id, { reg with entries := reg.entries ++ [(key, id)] })

/-- The registered filesystem of a URI's host: the one of the base identity, or else the first. -/
def find (reg : Registry) (uri : String) : Result FsId := do
  let parsed ← Uri.parse uri
  match reg.get? (.ofSettings parsed.host reg.base) with
  | some id => .ok id
  | none =>
    match reg.entries.find? fun e => e.1.host == parsed.host with
    | some e => .ok e.2
    | none => .error (.fileSystemNotFound uri)

/-- The path of a URI, given how the factory acts.  Without a filesystem for its host one is opened
under the base settings. -/
def pathWith (reg : Registry) (uri : String)
    (create : String → Settings → Registry → Result StoreId × Registry) : Result Path × Registry :=
  match Uri.parse uri with
  | .error e => (.error e, reg)
  | .ok parsed =>
    let path (id : FsId) : Path := .parse id parsed.path []
    match reg.find uri with
    | .ok id => (.ok (path id), reg)
    | .error (.fileSystemNotFound _) =>
      match reg.openWith uri [] create with
      | (.ok id, reg) => (.ok (path id), reg)
      | (.error (.alreadyExists _), reg) => ((reg.find uri).map path, reg)
      | (.error e, reg) => (.error e, reg)
    | .error e => (.error e, reg)

/-- Closes a filesystem and takes its entry away.  Closing again does nothing. -/
def close (reg : Registry) (id : FsId) : Registry :=
  match reg.fileSystem? id with
  | none => reg
  | some fs =>
    if fs.isOpen then
      { reg with
        fileSystems := reg.fileSystems.set id { fs with isOpen := false }
        entries := reg.entries.filter fun e => e ≠ (fs.key, id) }
    else reg

end Registry

/-- What a run of a factory yields, and the registry after it. -/
def FactoryRun.run : FactoryRun → Registry → Result StoreId × Registry
  | .result r, reg => (r, reg)
  | .openFileSystem uri env inner next, reg =>
    let (r, reg) := reg.openWith uri env fun host settings reg => (inner host settings).run reg
    (next r).run reg
  | .find uri next, reg => (next (reg.find uri)).run reg
  | .openPath uri inner next, reg =>
    let (r, reg) := reg.pathWith uri fun host settings reg => (inner host settings).run reg
    (next r).run reg
  | .close fs next, reg => next.run (reg.close fs)

namespace Registry

/-- Opens a filesystem for a URI, with a map of settings laid over the base settings. -/
def openFileSystem (reg : Registry) (factory : Factory) (uri : String) (env : Environment) :
    Result FsId × Registry :=
  reg.openWith uri env fun host settings reg => (factory host settings).run reg

/-- The path of a URI, on the filesystem of its host. -/
def openPath (reg : Registry) (factory : Factory) (uri : String) : Result Path × Registry :=
  reg.pathWith uri fun host settings reg => (factory host settings).run reg

/-- The file operations on the filesystems as they stand. -/
def files (reg : Registry) (rounds : Nat) : Files := { fileSystems := reg.fileSystems, rounds }

/-- A description, given that of the factory. -/
def describe (reg : Registry) (factory : String) : String :=
  "S3FileSystemProvider \x7b open_count: " ++ toString reg.size ++ ", factory: " ++ factory
    ++ ", .. \x7d"

end Registry

end BucketFs
