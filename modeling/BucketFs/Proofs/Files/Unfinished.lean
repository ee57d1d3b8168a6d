import BucketFs.Files.Copy
import BucketFs.Proofs.Call.Along
import BucketFs.Proofs.Store.Errors
import BucketFs.Proofs.Transfer.Plan

/-!
# Operations without a bound

Only listings and walks are bounded by a number of rounds, and report it when they go beyond.  What
asks about an entry, creates it, deletes it or copies it never ends so over a store that does not.

* `Files.status_avoids`, `Files.exists_avoids` — asking about an entry does not run out of rounds.
* `Files.makeDirectory_avoids`, `Files.copy_avoids` — neither does creating or copying one.
-/

namespace BucketFs

open BucketFs.Text

/-- The report of a listing or a walk that it took more rounds than allowed. -/
abbrev FsError.unfinished : FsError := .internal .unfinished

variable {σ : Type} {h : Handler σ}

/-- A handler whose stores do not count rounds. -/
def Handler.Unbounded (h : Handler σ) : Prop :=
  ∀ (through : Access) (c : StoreCall) (s : σ), (h (.store through c) s).1 ≠ .error .unfinished

theorem Store.handler_unbounded : Store.handler.Unbounded :=
  fun _ c s => Store.answer_ne_internal c s.1 _

variable (hunbounded : h.Unbounded)
include hunbounded

theorem ask_avoids (through : Access) (c : StoreCall) :
    (Action.ask through c).Avoids h .unfinished :=
  Action.avoids_ask (hunbounded through c)

theorem probe_avoids (through : Access) (bucket key : String) :
    (FileStatus.probe through bucket key).Avoids h .unfinished := by
  unfold FileStatus.probe
  refine (ask_avoids hunbounded _ _).outcome_bind fun r hr => ?_
  cases r with
  | ok info => exact Action.avoids_pure _
  | error e =>
    dsimp only
    split
    · exact Action.avoids_pure _
    · exact Action.avoids_throw fun heq => hr (by rw [heq])

theorem resolve_avoids (through : Access) (bucket key : String) :
    (FileStatus.resolve through bucket key).Avoids h .unfinished := by
  have hask := ask_avoids hunbounded
  have hprobe := probe_avoids hunbounded
  unfold FileStatus.resolve
  dsimp only
  split
  · exact (hask _ _).bind fun _ => Action.avoids_pure _
  · split
    -- the object is asked for only where the key may be one; what follows is the same
    all_goals
      refine Action.Avoids.bind
        (by first | exact Action.avoids_pure _ | exact hprobe _ _ _) fun object => ?_
      split
      · exact Action.avoids_pure _
      · refine (hprobe _ _ _).bind fun marker => ?_
        split
        · exact Action.avoids_pure _
        · refine (hask _ _).bind fun page => ?_
          split
          · exact Action.avoids_throw (by simp)
          · exact Action.avoids_pure _

/-! ## Transfers -/

namespace Transfer

omit hunbounded in
theorem objectAt_avoids (h : Handler σ) (p : Path) :
    (Action.ofResult (objectAt p)).Avoids h .unfinished := by
  apply Action.avoids_ofResult
  intro hnone
  unfold objectAt at hnone
  split at hnone
  · split at hnone <;> cases hnone
  · cases hnone

/-- A session that fails reports the transfer. -/
theorem sendInParts_avoids (through : Access) (schedule : Schedule) (bucket key : String)
    (size : Nat) (acl : Option Acl) (options : TransferOptions)
    (send : UploadHandle → PlannedPart → Program (Result String)) :
    (sendInParts through schedule bucket key size acl options send).Avoids h .unfinished := by
  unfold sendInParts
  refine Action.Avoids.bind ?_ fun plan => ?_
  · apply Action.avoids_ofResult
    intro hnone
    rcases PlannedPart.parts_cases size options.chunkSize with ⟨fault, heq⟩ | heq | ⟨-, heq⟩
    all_goals
      rw [heq] at hnone
      cases hnone
  · refine (ask_avoids hunbounded _ _).bind fun handle => ?_
    refine Action.Avoids.bind (Action.avoids_lift _) fun sent => ?_
    dsimp only
    split
    · exact Action.avoids_pure _
    · exact (Action.avoids_outcome _).bind fun _ => Action.avoids_throw (by simp)

theorem copy_avoids (through : Access) (schedule : Schedule) (source target : Path)
    (acl : Option Acl) (options : TransferOptions) :
    (copy through schedule source target acl options).Avoids h .unfinished := by
  unfold copy
  refine (objectAt_avoids h source).bind fun origin => ?_
  refine (objectAt_avoids h target).bind fun place => ?_
  dsimp only
  refine (ask_avoids hunbounded _ _).bind fun info => ?_
  split
  · exact sendInParts_avoids hunbounded _ _ _ _ _ _ _ _
  · exact (ask_avoids hunbounded _ _).bind fun _ => Action.avoids_pure _

theorem upload_avoids (through : Access) (schedule : Schedule) (data : Bytes) (target : Path)
    (acl : Option Acl) (options : TransferOptions) :
    (upload through schedule data target acl options).Avoids h .unfinished := by
  unfold upload
  refine (objectAt_avoids h target).bind fun place => ?_
  dsimp only
  split
  · exact sendInParts_avoids hunbounded _ _ _ _ _ _ _ _
  · exact (ask_avoids hunbounded _ _).bind fun _ => Action.avoids_pure _

end Transfer

/-! ## Entries -/

namespace Files

omit hunbounded in
theorem fileSystem_avoids (h : Handler σ) (f : Files) (p : Path) :
    (Action.ofResult (f.fileSystem p)).Avoids h .unfinished := by
  apply Action.avoids_ofResult
  intro hnone
  unfold fileSystem at hnone
  split at hnone <;> cases hnone

omit hunbounded in
theorem locate_avoids (h : Handler σ) (f : Files) (p : Path) :
    (Action.ofResult (f.locate p)).Avoids h .unfinished := by
  apply Action.avoids_ofResult
  intro hnone
  unfold locate openFileSystem fileSystem FileSystem.checkOpen at hnone
  split at hnone
  · rename_i fs _
    simp only [bind, Except.bind] at hnone
    cases hopen : fs.isOpen with
    | true =>
      simp only [hopen, if_true] at hnone
      split at hnone <;> cases hnone
    | false =>
      simp only [hopen, Bool.false_eq_true, if_false] at hnone
      cases hnone
  · cases hnone

theorem status_avoids (f : Files) (p : Path) : (f.status p).Avoids h .unfinished :=
  (locate_avoids h f p).bind fun _ => resolve_avoids hunbounded _ _ _

theorem exists_avoids (f : Files) (p : Path) : (f.exists? p).Avoids h .unfinished := by
  unfold exists?
  refine (status_avoids hunbounded f p).outcome_bind fun r hr => ?_
  cases r with
  | ok found => exact Action.avoids_pure _
  | error e =>
    dsimp only
    split
    · exact Action.avoids_pure _
    · exact Action.avoids_throw fun heq => hr (by rw [heq])

theorem makeDirectory_avoids (f : Files) (p : Path) :
    (f.makeDirectory p).Avoids h .unfinished := by
  unfold makeDirectory
  refine (locate_avoids h f p).bind fun place => ?_
  dsimp only
  refine (exists_avoids hunbounded f p).bind fun found => ?_
  simp only [Action.throw_bind]
  split
  · exact Action.avoids_throw (by simp)
  · split
    · exact Action.avoids_throw (by simp)
    · exact (ask_avoids hunbounded _ _).bind fun _ => Action.avoids_pure _

theorem ensureEmpty_avoids (f : Files) (p : Path) : (f.ensureEmpty p).Avoids h .unfinished := by
  unfold ensureEmpty
  refine (locate_avoids h f p).bind fun place => ?_
  dsimp only
  refine (ask_avoids hunbounded _ _).bind fun page => ?_
  split
  · exact Action.avoids_throw (by simp)
  · exact Action.avoids_pure _

theorem unlink_avoids (f : Files) (p : Path) (isDirectory : Bool) :
    (f.unlink p isDirectory).Avoids h .unfinished :=
  (locate_avoids h f p).bind fun _ => ask_avoids hunbounded _ _

theorem clearTarget_avoids (f : Files) (target : Path) (replace isDirectory : Bool) :
    (f.clearTarget target replace isDirectory).Avoids h .unfinished := by
  have hunlink : ∀ found : FileStatus,
      (if found.isDirectory ≠ isDirectory then f.unlink target found.isDirectory
        else pure ()).Avoids h .unfinished := by
    intro found
    split
    · exact unlink_avoids hunbounded _ _ _
    · exact Action.avoids_pure _
  unfold clearTarget
  refine (status_avoids hunbounded f target).outcome_bind fun r hr => ?_
  simp only [Action.throw_bind]
  cases r with
  | error e =>
    dsimp only
    split
    · exact Action.avoids_pure _
    · exact Action.avoids_throw fun heq => hr (by rw [heq])
  | ok found =>
    dsimp only
    split
    · exact Action.avoids_throw (by simp)
    · split
      · exact (ensureEmpty_avoids hunbounded f target).bind fun _ => hunlink _
      · exact hunlink _

/-- **Copying an entry** takes no rounds. -/
theorem copy_avoids (f : Files) (source target : Path) (options : CopyMode) :
    (f.copy source target options).Avoids h .unfinished := by
  unfold copy
  split
  · exact Action.avoids_pure _
  · refine (status_avoids hunbounded f source).bind fun found => ?_
    refine (locate_avoids h f target).bind fun place => ?_
    dsimp only
    refine (clearTarget_avoids hunbounded f target _ _).bind fun _ => ?_
    split
    · exact (ask_avoids hunbounded _ _).bind fun _ => Action.avoids_pure _
    · split
      · exact (Transfer.copy_avoids hunbounded _ _ _ _ _ _).bind fun _ => Action.avoids_pure _
      · refine Action.Avoids.bind ?_ fun data =>
          (Transfer.upload_avoids hunbounded _ _ _ _ _ _).bind fun _ => Action.avoids_pure _
        exact (Transfer.objectAt_avoids h source).bind fun _ =>
          (fileSystem_avoids h f source).bind fun _ => ask_avoids hunbounded _ _

end Files

end BucketFs
