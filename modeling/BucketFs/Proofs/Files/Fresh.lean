import BucketFs.Proofs.Files.Locate
import BucketFs.Files.Copy
import BucketFs.Proofs.Transfer.Content

/-!
# Entries at places where nothing is

* `Files.Locates.makeDirectory_fresh` — a directory that is created there gets an empty marker.
* `Files.Locates.copy_fresh` — a file that is copied there gets the content of the source.
-/

namespace BucketFs

/-- The options by which files are transferred to a filesystem. -/
def CopyMode.transferOptions (options : CopyMode) (fs : FileSystem) : TransferOptions :=
  { fs.transferOptions with chunkSize := options.chunkSize.getD fs.transferOptions.chunkSize }

namespace Files

open BucketFs.Text

variable {f : Files} {source target : Path} {fs : FileSystem} {bucket bucket' : String}
  {ns ns' : List String} {s : Store} {b : Bucket} (file : LocalFile)

/-- A put into a bucket that exists writes the content. -/
theorem put_wrote (hb : s.bucket? bucket = some b) (through : Access) (key : String) (data : Bytes)
    (acl : Option Acl) :
    ∃ s', (Action.ask through (.put bucket key data acl)).run.run Store.handler (s, file) =
        (.ok (Etag.ofContent data), (s', file)) ∧
      Store.Wrote s s' bucket key data (acl.getD .byDefault) ∧ s'.uploads = s.uploads := by
  have hwrote := Store.wrote_setBucket hb key
    (s.stamp data (Etag.ofContent data) (acl.getD .byDefault))
  refine ⟨_, ?_, hwrote, rfl⟩
  rw [Action.run_ask]
  simp only [Store.handler, Store.answer, Store.put, Store.write_eq_ok hb]

section Target

variable (ht : f.Locates target fs bucket' ns') (hne : ns' ≠ []) {b' : Bucket}
  (hb' : s.bucket? bucket' = some b') (hfile : ¬ HasFile b' ns')
  (hdirectory : ¬ HasDirectory b' ns')
include ht hb' hfile hdirectory

theorem Locates.exists_fresh :
    (f.exists? target).run.run Store.handler (s, file) = (.ok false, (s, file)) := by
  obtain ⟨found, hrun, hfound⟩ := ht.exists_run file hb'
  cases found with
  | false => exact hrun
  | true => exact ((hfound.1 rfl).elim hfile hdirectory).elim

/-- There is nothing to make way. -/
theorem Locates.clearTarget_fresh (replace isDirectory : Bool) :
    (f.clearTarget target replace isDirectory).run.run Store.handler (s, file) =
      (.ok (), (s, file)) := by
  obtain ⟨r, hrun, hstatus⟩ := ht.status_run file hb'
  have houtcome : (Action.outcome (f.status target)).run.run Store.handler (s, file) =
      (.ok r, (s, file)) := by
    rw [Action.run_outcome, hrun]
  rw [clearTarget, Action.run_bind_ok houtcome]
  cases hstatus with
  | file stored _ => exact absurd stored hfile
  | directory _ below _ => exact absurd below hdirectory
  | nothing _ _ isMissing =>
    dsimp only
    rw [if_pos isMissing]
    rfl

include hne

/-- **A directory that is created** where nothing is gets an empty marker, and nothing else
changes. -/
theorem Locates.makeDirectory_fresh :
    ∃ s', (f.makeDirectory target).run.run Store.handler (s, file) = (.ok (), (s', file)) ∧
      Store.Wrote s s' bucket' (joined ns' ++ slash) [] .byDefault := by
  obtain ⟨s', hput, hwrote, -⟩ := put_wrote file hb' fs.access (insidePrefix (joined ns')) [] none
  rw [insidePrefix_joined ht.isName hne] at hwrote
  have hkey : ¬ joined ns' = "" := fun h0 => hne (ht.key_eq_empty_iff.1 h0)
  refine ⟨s', ?_, hwrote⟩
  rw [makeDirectory, ht.locate_eq, Action.ofResult_ok_bind]
  dsimp only
  rw [Action.run_bind_ok (ht.exists_fresh file hb' hfile hdirectory)]
  simp only [Bool.false_eq_true, if_false, if_neg hkey]
  exact Action.run_bind_ok hput

/-- **A file that is copied** to where nothing is gets the content of the source, and nothing else
changes. -/
theorem Locates.copy_fresh (hs : f.Locates source fs bucket ns) (hb : s.bucket? bucket = some b)
    (hstored : HasFile b ns) {data : Bytes} (hdata : s.content? bucket (joined ns) = some data)
    (options : CopyMode) (hbound : data.length < 2 ^ 63)
    (hcount : Transfer.partCount (options.transferOptions fs) data.length <
      PlannedPart.numberLimit) :
    ∃ s', (f.copy source target options).run.run Store.handler (s, file) = (.ok (), (s', file)) ∧
      Store.Wrote s s' bucket' (joined ns') data (options.acl.getD .byDefault) := by
  have hdifferent : source ≠ target := by
    intro heq
    have hplace : bucket :: ns = bucket' :: ns' := by
      have hpath := hs.path_eq.symm.trans (heq.trans ht.path_eq)
      exact congrArg Path.segments hpath
    obtain ⟨rfl, rfl⟩ := List.cons.inj hplace
    rw [hb] at hb'
    obtain rfl := Option.some.inj hb'
    exact hfile hstored
  obtain ⟨r, hrun, hstatus⟩ := hs.status_run file hb
  have hcontent : (Transfer.Source.object source).content? s file = some data := by
    rw [Transfer.Source.content?, hs.objectAt_eq hstored.named]
    exact hdata
  obtain ⟨s', hsend, hwrote, -⟩ := Transfer.transfer_wrote fs.access f.schedule options.acl
    (ht.objectAt_eq hne) hb' hcontent hbound hcount
  refine ⟨s', ?_, hwrote⟩
  cases hstatus with
  | @file a stored isFile =>
    have hclear := ht.clearTarget_fresh file hb' hfile hdirectory options.replaceExisting
      a.isDirectory
    have hsame : source.fs = target.fs := by rw [hs.path_eq, ht.path_eq]
    rw [copy, if_neg hdifferent, Action.run_bind_ok hrun, ht.locate_eq, Action.ofResult_ok_bind]
    dsimp only
    rw [Action.run_bind_ok hclear]
    simp only [isFile, Bool.false_eq_true, if_false, if_pos hsame]
    exact Action.run_bind_ok hsend
  | directory unstored _ _ => exact absurd hstored unstored
  | nothing unstored _ _ => exact absurd hstored unstored

end Target

end Files

end BucketFs
