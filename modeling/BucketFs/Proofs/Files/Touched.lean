import BucketFs.Proofs.Files.Asking
import BucketFs.Proofs.Files.Locate
import BucketFs.Proofs.Transfer.Target

/-!
# The objects that file operations touch

* `status_reads`, `exists_reads`, `collect_reads` — asking what is at a path and listing a directory
  touch nothing.
* `makeDirectory_within`, `unlink_within`, `clearTarget_within` and `copy_within` — what creates,
  deletes or copies an entry touches the object at its key and its marker only.
-/

namespace BucketFs

open BucketFs.Text

variable {σ : Type} {h : Handler σ} {reaches : Access → Prop} {view : σ → Store}
  {may : ObjectSet}

theorem StoreCall.Asks.touched? {c : StoreCall} (hc : c.Asks) (s : Store) :
    c.touched? s = none := by
  cases c with
  | head | list | get | buckets => rfl
  | _ => exact hc.elim

/-- What only asks touches nothing. -/
theorem Access.mayAsk_within (through : Access) :
    through.MayAsk (Call.Within reaches view may) :=
  fun _ s hc => .of_untouched (hc.touched? (view s))

/-- Listing a directory touches nothing. -/
theorem collect_reads (rounds : Nat) (stream : ChildStream) :
    (stream.collect rounds).Always h (Call.Within reaches view may) :=
  collect_asks rounds (Access.mayAsk_within _)

namespace Files

variable {f : Files}

theorem status_reads (f : Files) (p : Path) :
    (f.status p).Always h (Call.Within reaches view may) :=
  status_asks fun _ _ => Access.mayAsk_within _

theorem exists_reads (f : Files) (p : Path) :
    (f.exists? p).Always h (Call.Within reaches view may) :=
  exists_asks fun _ _ => Access.mayAsk_within _

theorem read_reads (f : Files) (p : Path) : (f.read p).Always h (Call.Within reaches view may) :=
  read_asks fun _ _ => Access.mayAsk_within _

/-- The objects by which something is at a key: that of the key and the marker of the directory. -/
def entryAt (through : Access) (bucket key : String) : ObjectSet :=
  fun through' bucket' key' =>
    through' = through ∧ bucket' = bucket ∧ (key' = key ∨ key' = insidePrefix key)

variable {p : Path} {fs : FileSystem} {bucket : String} {ns : List String}

theorem put_marker_within (through : Access) (bucket key : String) (acl : Option Acl) :
    (Action.ask through (.put bucket (insidePrefix key) [] acl)).Always h
      (Call.Within reaches view (entryAt through bucket key)) := by
  apply Action.always_ask
  intro s _ bucket' key' htouched
  cases htouched
  exact ⟨rfl, rfl, .inr rfl⟩

theorem unlink_within (hp : f.Locates p fs bucket ns) (isDirectory : Bool) :
    (f.unlink p isDirectory).Always h
      (Call.Within reaches view (entryAt fs.access bucket (joined ns))) := by
  rw [unlink, hp.locate_eq, Action.ofResult_ok_bind]
  apply Action.always_ask
  intro s _ bucket' key' htouched
  cases htouched
  cases isDirectory with
  | true => exact ⟨rfl, rfl, .inr rfl⟩
  | false => exact ⟨rfl, rfl, .inl rfl⟩

/-- Creating a directory touches its marker. -/
theorem makeDirectory_within (hp : f.Locates p fs bucket ns) :
    (f.makeDirectory p).Always h
      (Call.Within reaches view (entryAt fs.access bucket (joined ns))) := by
  refine makeDirectory_always (fun _ _ => Access.mayAsk_within _) fun place hplace _ => ?_
  rw [hp.locate_eq] at hplace
  cases hplace
  exact put_marker_within _ _ _ _

/-- Making way for an entry touches what is at its place. -/
theorem clearTarget_within (hp : f.Locates p fs bucket ns) (replace isDirectory : Bool) :
    (f.clearTarget p replace isDirectory).Always h
      (Call.Within reaches view (entryAt fs.access bucket (joined ns))) :=
  clearTarget_always (fun _ _ => Access.mayAsk_within _) (unlink_within hp) replace isDirectory

/-- **Copying an entry touches what is at the target** and nothing else, whatever fails. -/
theorem copy_within (hserves : h.Serves reaches view) (source : Path) {target : Path}
    (ht : f.Locates target fs bucket ns) (options : CopyMode) :
    (f.copy source target options).Always h
      (Call.Within reaches view (entryAt fs.access bucket (joined ns))) := by
  have htransfer : ∀ (origin : Transfer.Source) (acl : Option Acl) (o : TransferOptions),
      (origin.transfer fs.access f.schedule target acl o).Always h
        (Call.Within reaches view (entryAt fs.access bucket (joined ns))) := by
    intro origin acl o
    by_cases hne : ns = []
    · -- a bucket is no object, so the transfer is refused
      obtain ⟨fault, heq⟩ := origin.transfer_refused fs.access f.schedule
        (ht.objectAt_refused hne) acl o
      rw [heq]
      exact Action.always_throw _
    · intro s
      have hobject := ht.objectAt_eq hne
      refine (Transfer.transfer_within hserves f.schedule hobject origin acl o s).mono ?_
      apply Call.Within.mono
      rintro through bucket' key' ⟨rfl, rfl, rfl⟩
      exact ⟨rfl, rfl, .inl rfl⟩
  unfold copy
  split
  · exact Action.always_pure _
  · refine (status_reads f source).bind fun found => ?_
    rw [ht.locate_eq, Action.ofResult_ok_bind]
    dsimp only
    refine (clearTarget_within ht _ _).bind fun _ => ?_
    split
    · exact (put_marker_within _ _ _ _).bind fun _ => Action.always_pure _
    · split
      · exact (htransfer (.object source) _ _).bind fun _ => Action.always_pure _
      · exact (read_reads f source).bind fun data =>
          (htransfer (.bytes data) _ _).bind fun _ => Action.always_pure _

end Files

end BucketFs
