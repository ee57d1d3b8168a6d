import BucketFs.Files.Operation
import BucketFs.Proofs.Files.Asking
import BucketFs.Proofs.Location.Parts
import BucketFs.Proofs.Transfer.Access

/-!
# Closed filesystems

No operation has a gate of its own against closed filesystems: each comes by the check where it
looks up the place of a path, or through another operation.

* `Files.perform_open` — every operation but the reading of a whole file calls through the accesses
  of open filesystems only.
* `Files.perform_shut` — given a path of a closed filesystem, every operation but the reading of a
  whole file fails, unless it copies or moves a path onto itself.
-/

namespace BucketFs

variable {σ α β : Type} {h : Handler σ}

/-! ## Actions that fail -/

namespace Action

/-- Whether every run of an action ends in an error. -/
def Fails (h : Handler σ) (a : Action α) : Prop := ∀ s, ∃ e, (a.run.run h s).1 = .error e

variable {a : Action α} {f : α → Action β}

theorem fails_throw (e : FsError) : (throw e : Action α).Fails h := fun _ => ⟨e, rfl⟩

theorem Fails.bind (ha : a.Fails h) : (a >>= f).Fails h := by
  intro s
  obtain ⟨e, he⟩ := ha s
  exact ⟨e, by rw [run_bind_error (t := (a.run.run h s).2) (by rw [← he])]⟩

/-- An action fails whose steps behind the first one fail. -/
theorem fails_bind (hf : ∀ x, (f x).Fails h) : (a >>= f).Fails h := by
  intro s
  cases hrun : a.run.run h s with
  | mk r t =>
    cases r with
    | error e => exact ⟨e, by rw [run_bind_error hrun]⟩
    | ok x =>
      rw [run_bind_ok hrun]
      exact hf x t

end Action

namespace Files

variable {f : Files} {p : Path} {fs : FileSystem}

/-! ## Calls through open filesystems -/

/-- Whether an access is that of an open filesystem. -/
def Reaches (f : Files) (through : Access) : Prop :=
  ∃ p fs, f.openFileSystem p = .ok fs ∧ fs.access = through

/-- A call about a local file, or through the access of an open filesystem. -/
def OpenCall (f : Files) : Call → σ → Prop
  | .store through _, _ => f.Reaches through
  | .file _, _ => True

theorem mayCall_open (hopen : f.openFileSystem p = .ok fs) :
    fs.access.MayCall (f.OpenCall (σ := σ)) :=
  ⟨fun _ _ => ⟨p, fs, hopen, rfl⟩, fun _ _ => trivial⟩

theorem mayAsk_open (fs : FileSystem) (hopen : f.openFileSystem p = .ok fs) :
    fs.access.MayAsk (f.OpenCall (σ := σ)) :=
  fun c s _ => (mayCall_open hopen).store c s

/-- An action that knows the place of its path may call through the access of its filesystem. -/
theorem located_open {a : FileSystem × String × String → Action α}
    (ha : ∀ place, place.1.access.MayCall (f.OpenCall (σ := σ)) →
      (a place).Always h f.OpenCall) :
    (Action.ofResult (f.locate p) >>= a).Always h f.OpenCall :=
  located_always mayAsk_open fun place _ hopen => ha place (mayCall_open hopen)

/-- So may one that knows the open filesystem of its path. -/
theorem opened_open {a : FileSystem → Action α}
    (ha : ∀ fs, fs.access.MayCall (f.OpenCall (σ := σ)) → (a fs).Always h f.OpenCall) :
    (Action.ofResult (f.openFileSystem p) >>= a).Always h f.OpenCall := by
  cases hopen : f.openFileSystem p with
  | error e => exact Action.always_throw e
  | ok fs => exact ha fs (mayCall_open hopen)

theorem status_open (f : Files) (p : Path) : (f.status p).Always h f.OpenCall :=
  status_asks mayAsk_open

theorem exists_open (f : Files) (p : Path) : (f.exists? p).Always h f.OpenCall :=
  exists_asks mayAsk_open

/-- The filesystem is open of which a status was found. -/
theorem openFileSystem_of_status {s t : σ} {found : FileStatus}
    (hstatus : (f.status p).run.run h s = (.ok found, t)) : ∃ fs, f.openFileSystem p = .ok fs := by
  unfold status at hstatus
  cases hlocate : f.locate p with
  | error e =>
    rw [hlocate] at hstatus
    cases hstatus
  | ok place => exact ⟨place.1, openFileSystem_of_locate hlocate⟩

theorem makeDirectory_open (f : Files) (dir : Path) :
    (f.makeDirectory dir).Always h f.OpenCall :=
  makeDirectory_always mayAsk_open fun _ hplace _ =>
    (mayCall_open (openFileSystem_of_locate hplace)).ask _

theorem ensureEmpty_open (f : Files) (dir : Path) : (f.ensureEmpty dir).Always h f.OpenCall :=
  ensureEmpty_asks mayAsk_open

theorem unlink_open (f : Files) (p : Path) (isDirectory : Bool) :
    (f.unlink p isDirectory).Always h f.OpenCall :=
  located_open fun _ hplace => hplace.ask _

theorem delete_open (f : Files) (p : Path) : (f.delete p).Always h f.OpenCall :=
  delete_always mayAsk_open (unlink_open f p)

/-- Reading a file of an open filesystem calls through it. -/
theorem read_open (hopen : f.openFileSystem p = .ok fs) : (f.read p).Always h f.OpenCall := by
  refine read_asks fun fs' hfs => ?_
  rw [fileSystem_of_open hopen] at hfs
  cases hfs
  exact mayAsk_open fs hopen

theorem copy_open (f : Files) (source target : Path) (options : CopyMode) :
    (f.copy source target options).Always h f.OpenCall := by
  unfold copy
  split
  · exact Action.always_pure _
  · intro s
    refine Action.along_bind (status_open f source s) fun found t hstatus => ?_
    obtain ⟨origin, horigin⟩ := openFileSystem_of_status hstatus
    refine located_open (fun place hplace => ?_) t
    dsimp only
    have hclear := clearTarget_always (h := h) mayAsk_open (unlink_open f target)
    refine (hclear _ _).bind fun _ => ?_
    have htransfer := fun source schedule acl options =>
      Transfer.transfer_calls (h := h) hplace source schedule target acl options
    split
    · exact (hplace.ask _).bind fun _ => Action.always_pure _
    · split
      · exact (htransfer (.object source) _ _ _).bind fun _ => Action.always_pure _
      · exact (read_open horigin).bind fun data =>
          (htransfer (.bytes data) _ _ _).bind fun _ => Action.always_pure _

theorem move_open (f : Files) (source target : Path) (options : CopyMode) :
    (f.move source target options).Always h f.OpenCall := by
  unfold move
  split
  · exact Action.always_pure _
  · refine (status_open f source).bind fun found => ?_
    have hrest := (copy_open (h := h) f source target options).bind fun _ => delete_open f source
    dsimp only
    split
    · exact (ensureEmpty_open f source).bind fun _ => hrest
    · exact hrest

theorem copyAll_open (f : Files) (source target : Path) (options : CopyMode) :
    (f.copyAll source target options).Always h f.OpenCall := by
  unfold copyAll
  simp only [Action.throw_bind]
  split
  · exact Action.always_throw _
  · refine copyPending_always (Q := fun _ _ => True) (mayAsk_open _) ?_ ?_ ?_ _ _ _ ?_
    · exact fun _ target _ => makeDirectory_open f target
    · exact fun source target _ _ t _ _ _ => copy_open f source target options t
    · exact fun _ _ _ _ _ _ _ _ _ _ _ _ _ => trivial
    · exact fun _ _ => trivial

/-- **Every operation but the reading of a whole file** calls through the accesses of open
filesystems only. -/
theorem perform_open (f : Files) {op : FileOperation} (hread : ∀ p, op ≠ .read p) :
    (f.perform op).Always h f.OpenCall := by
  cases op with
  | status p => exact status_open f p
  | exists? p => exact exists_open f p
  | children dir => exact Action.always_ofResult _
  | read p => exact absurd rfl (hread p)
  | write p data =>
    exact opened_open fun fs hfs => Transfer.transfer_calls hfs (.bytes data) _ _ _ _
  | uploadLocal file p =>
    exact opened_open fun fs hfs => Transfer.transfer_calls hfs (.file file) _ _ _ _
  | makeDirectory dir => exact makeDirectory_open f dir
  | delete p => exact delete_open f p
  | deleteAny p => exact deleteAny_always mayAsk_open (unlink_open f p)
  | copy source target options => exact copy_open f source target options
  | move source target options => exact move_open f source target options
  | copyAll source target options => exact copyAll_open f source target options

/-! ## Paths of closed filesystems -/

section Shut

variable {e : FsError} (hshut : f.openFileSystem p = .error e)
include hshut

theorem locate_shut : f.locate p = .error e := by
  rw [locate, hshut]
  rfl

theorem status_shut : f.status p = throw e := by
  rw [status, locate_shut hshut]
  rfl

theorem children_shut : f.children p = .error e := by
  rw [children, locate_shut hshut]
  rfl

theorem delete_shut : f.delete p = throw e := by
  rw [delete, locate_shut hshut]
  rfl

variable (hmissing : e.isMissing = false)
include hmissing

theorem exists_shut : f.exists? p = throw e := by
  rw [exists?, status_shut hshut]
  change (if e.isMissing then pure false else throw e : Action Bool) = throw e
  rw [hmissing]
  rfl

theorem deleteAny_shut : f.deleteAny p = throw e := by
  rw [deleteAny, delete_shut hshut]
  change (if e.isMissing then pure false else throw e : Action Bool) = throw e
  rw [hmissing]
  rfl

end Shut

section Fails

variable {source target : Path} {e : FsError}

/-- Copying from a closed filesystem or to one fails. -/
theorem copy_fails (hshut : f.openFileSystem source = .error e ∨ f.openFileSystem target = .error e)
    (hne : source ≠ target) (options : CopyMode) : (f.copy source target options).Fails h := by
  rw [copy, if_neg hne]
  rcases hshut with hsource | htarget
  · rw [status_shut hsource]
    exact Action.fails_throw e
  · refine Action.fails_bind fun found => ?_
    rw [locate_shut htarget]
    exact Action.fails_throw e

theorem move_fails (hshut : f.openFileSystem source = .error e ∨ f.openFileSystem target = .error e)
    (hne : source ≠ target) (options : CopyMode) : (f.move source target options).Fails h := by
  have hcopy := copy_fails (h := h) hshut hne options
  rw [move, if_neg hne]
  refine Action.fails_bind fun found => ?_
  dsimp only
  split
  · exact Action.fails_bind fun _ => hcopy.bind
  · exact hcopy.bind

/-- The first round of a tree copy from a closed filesystem or to one fails. -/
theorem copyPending_fails
    (hshut : f.openFileSystem source = .error e ∨ f.openFileSystem target = .error e)
    (hmissing : e.isMissing = false) (hne : source ≠ target) (options : CopyMode) (rounds : Nat)
    (rest : List (Path × Path)) (files : Nat) :
    (f.copyPending options rounds ((source, target) :: rest) files).Fails h := by
  cases rounds with
  | zero => exact Action.fails_throw _
  | succ rounds =>
    have hcopy := copy_fails (h := h) hshut hne options
    rw [copyPending]
    rcases hshut with hsource | htarget
    · rw [status_shut hsource]
      exact Action.fails_throw e
    · refine Action.fails_bind fun found => ?_
      split
      · exact hcopy.bind
      · rw [exists_shut htarget hmissing]
        exact Action.fails_throw e

theorem copyAll_fails
    (hshut : f.openFileSystem source = .error e ∨ f.openFileSystem target = .error e)
    (hmissing : e.isMissing = false) (options : CopyMode) :
    (f.copyAll source target options).Fails h := by
  unfold copyAll
  simp only [Action.throw_bind]
  split
  · exact Action.fails_throw _
  · rename_i hguard
    refine copyPending_fails hshut hmissing ?_ options _ _ _
    -- a path is inside itself, so no tree is copied onto itself
    rintro rfl
    exact hguard (Path.startsWith_refl _)

/-- **Given a path of a closed filesystem**, every operation but the reading of a whole file fails,
unless it copies or moves a path onto itself. -/
theorem perform_shut (hshut : f.openFileSystem p = .error e) (hmissing : e.isMissing = false)
    {op : FileOperation} (hread : ∀ p, op ≠ .read p) (hp : p ∈ op.paths) (honto : ¬ op.OntoItself) :
    (f.perform op).Fails h := by
  have hone : ∀ {q : Path}, p ∈ [q] → f.openFileSystem q = .error e :=
    fun hq => List.mem_singleton.1 hq ▸ hshut
  have htwo : ∀ {q q' : Path}, p ∈ [q, q'] →
      f.openFileSystem q = .error e ∨ f.openFileSystem q' = .error e := by
    intro q q' hq
    rcases List.mem_pair.1 hq with rfl | rfl
    · exact .inl hshut
    · exact .inr hshut
  cases op with
  | status q =>
    rw [perform, status_shut (hone hp)]
    exact Action.fails_throw e
  | exists? q =>
    rw [perform, exists_shut (hone hp) hmissing]
    exact Action.fails_throw e
  | children q =>
    rw [perform, children_shut (hone hp)]
    exact Action.fails_throw e
  | read q => exact absurd rfl (hread q)
  | write q data =>
    rw [perform, write, hone hp]
    exact Action.fails_throw e
  | uploadLocal file q =>
    rw [perform, uploadLocal, hone hp]
    exact Action.fails_throw e
  | makeDirectory q =>
    rw [perform, makeDirectory, locate_shut (hone hp)]
    exact Action.fails_throw e
  | delete q =>
    rw [perform, delete_shut (hone hp)]
    exact Action.fails_throw e
  | deleteAny q =>
    rw [perform, deleteAny_shut (hone hp) hmissing]
    exact Action.fails_throw e
  | copy source target options => exact copy_fails (htwo hp) honto options
  | move source target options => exact move_fails (htwo hp) honto options
  | copyAll source target options => exact copyAll_fails (htwo hp) hmissing options

end Fails

end Files

end BucketFs
