import BucketFs.Proofs.Files.Delete
import BucketFs.Proofs.Files.Fresh
import BucketFs.Proofs.Store.History
import BucketFs.Proofs.Store.Touched

/-!
# Copying an entry

* `Cleared` — the store after way was made for a file or a directory; `Clearing` — all that making
  way can come to, and `Files.Locates.clearTarget_run` that it comes to that.
* `FileCopied` and `MarkerCopied` — the store after a file or a directory was copied.
* `Files.copy_exact` — every copy within a filesystem comes to one of the outcomes of `Copied`.
-/

namespace BucketFs

open BucketFs.Text BucketFs.Listing

/-! ## Making way -/

/-- Whether an entry may be written at a key: nothing is there, or it may be replaced and is no
directory with content. -/
def CopyMode.MayWrite (options : CopyMode) (b : Bucket) (key : String) : Prop :=
  ¬ Occupied b key ∨ options.replaceExisting = true ∧ (key ∈ b.keys ∨ ¬ HasContent b key)

/-- A store after way was made at a key: for a directory the object is gone, and for a file the
marker, unless an object hides it. -/
inductive Cleared (s : Store) (bucket key : String) : (isDirectory : Bool) → Store → Prop
  | forDirectory {s' : Store} (removed : Store.Removed s s' bucket key) :
      Cleared s bucket key true s'
  | forFile {s' : Store} (unstored : s.object? bucket key = none)
      (removed : Store.Removed s s' bucket (key ++ slash)) : Cleared s bucket key false s'
  | ontoFile (stored : s.object? bucket key ≠ none) : Cleared s bucket key false s

/-- What making way for an entry comes to. -/
inductive Clearing (s : Store) (target : Path) (bucket : String) (b : Bucket) (options : CopyMode)
    (isDirectory : Bool) : Result Unit → Store → Prop
  | kept (there : Occupied b target.key) (keeps : options.replaceExisting = false) :
      Clearing s target bucket b options isDirectory (.error (.alreadyExists target.render)) s
  | refused (replaces : options.replaceExisting = true) (unstored : target.key ∉ b.keys)
      (content : HasContent b target.key) :
      Clearing s target bucket b options isDirectory (.error (.directoryNotEmpty target.render)) s
  | cleared {s' : Store} (free : options.MayWrite b target.key)
      (cleared : Cleared s bucket target.key isDirectory s') :
      Clearing s target bucket b options isDirectory (.ok ()) s'

namespace Files

section Target

variable {f : Files} {target : Path} {fs : FileSystem} {bucket : String} {ns : List String}
  {s : Store} {b : Bucket} (file : LocalFile) (hb : s.bucket? bucket = some b)
include hb

theorem object?_eq_none_iff {key : String} : s.object? bucket key = none ↔ key ∉ b.keys := by
  rw [Store.mem_keys_iff hb, ← Option.ne_none_iff_exists', not_not]

/-- Nothing has to be removed where nothing is. -/
theorem cleared_vacant {key : String} (hvacant : ¬ Occupied b key) (isDirectory : Bool) :
    Cleared s bucket key isDirectory s := by
  have hunstored := (object?_eq_none_iff hb).2 (mt .inl hvacant)
  have hunmarked : key ++ slash ∉ b.keys := fun hmarker =>
    hvacant (.inr ⟨_, hmarker, hasPrefix_refl _⟩)
  cases isDirectory with
  | true => exact .forDirectory (Store.removed_refl hunstored)
  | false =>
    exact .forFile hunstored (Store.removed_refl ((object?_eq_none_iff hb).2 hunmarked))

variable (h : f.Locates target fs bucket ns) (hne : ns ≠ [])
include h hne

/-- **Making way** for a file or a directory, on pages with room for more than a marker. -/
theorem Locates.clearTarget_run (options : CopyMode) (isDirectory : Bool)
    (hpage : 2 ≤ s.pageLimit) :
    ∃ r s', (f.clearTarget target options.replaceExisting isDirectory).run.run Store.handler
        (s, file) = (r, (s', file)) ∧ Clearing s target bucket b options isDirectory r s' := by
  obtain ⟨r, hrun, hstatus⟩ := h.status_run file hb
  have houtcome : (Action.outcome (f.status target)).run.run Store.handler (s, file) =
      (.ok r, (s, file)) := by
    rw [Action.run_outcome, hrun]
  rw [clearTarget, Action.run_bind_ok houtcome]
  cases hstatus with
  | @file a stored isFile =>
    have hstored : target.key ∈ b.keys := h.key_eq ▸ stored.stored
    dsimp only
    rw [isFile]
    cases hreplace : options.replaceExisting with
    | false => exact ⟨_, s, rfl, .kept (.inl hstored) hreplace⟩
    | true =>
      have hfree : options.MayWrite b target.key := .inr ⟨hreplace, .inl hstored⟩
      cases isDirectory with
      | false =>
        exact ⟨_, s, rfl, .cleared hfree
          (.ontoFile (mt (object?_eq_none_iff hb).1 (not_not.2 hstored)))⟩
      | true =>
        obtain ⟨s', hunlink, hremoved⟩ := h.unlink_run file hne hb false
        exact ⟨_, s', hunlink, .cleared hfree (.forDirectory hremoved)⟩
  | @directory a unstored below isDirectory' =>
    have hunstored : target.key ∉ b.keys := fun hmem => unstored ⟨hne, h.key_eq ▸ hmem⟩
    have hbelow : HasBelow b target.key := h.key_eq ▸ below.resolve_left hne
    dsimp only
    rw [isDirectory']
    cases hreplace : options.replaceExisting with
    | false => exact ⟨_, s, rfl, .kept (.inr hbelow) hreplace⟩
    | true =>
      simp only [Bool.not_true, Bool.false_eq_true, if_false, if_true]
      by_cases hcontent : HasContent b target.key
      · have hcheck := h.ensureEmpty_refused file hne hb hcontent (.inl hpage)
        exact ⟨_, s, Action.run_bind_error hcheck, .refused hreplace hunstored hcontent⟩
      · have hfree : options.MayWrite b target.key := .inr ⟨hreplace, .inr hcontent⟩
        have hnone := (object?_eq_none_iff hb).2 hunstored
        rw [Action.run_bind_ok (h.ensureEmpty_passed file hne hb hcontent)]
        cases isDirectory with
        | true => exact ⟨_, s, rfl, .cleared hfree (.forDirectory (Store.removed_refl hnone))⟩
        | false =>
          obtain ⟨s', hunlink, hremoved⟩ := h.unlink_run file hne hb true
          exact ⟨_, s', hunlink, .cleared hfree (.forFile hnone hremoved)⟩
  | @nothing e unstored empty isMissing =>
    have hvacant : ¬ Occupied b target.key := by
      rw [h.key_eq]
      exact not_occupied hne unstored empty
    dsimp only
    rw [if_pos isMissing]
    exact ⟨_, s, rfl, .cleared (.inl hvacant) (cleared_vacant hb hvacant isDirectory)⟩

end Target

end Files

/-! ## The store after a copy -/

/-- A store in which only the object of a key and the marker of its directory may be different.
Sessions are closed again, so a store that numbers them has none it did not have before. -/
structure SameAround (s s' : Store) (bucket key : String) : Prop where
  others : ∀ bucket' key', ¬ (bucket' = bucket ∧ (key' = key ∨ key' = key ++ slash)) →
    s'.object? bucket' key' = s.object? bucket' key'
  buckets : ∀ name, s'.bucket? name = none ↔ s.bucket? name = none
  uploads : s.Regular → s'.uploads = s.uploads

/-- A store after a file was copied to a key.  The marker of a directory stays only behind an object
that was there before. -/
structure FileCopied (s s' : Store) (bucket key : String) (data : Bytes) (acl : Acl) : Prop
    extends SameAround s s' bucket key where
  content : s'.content? bucket key = some data
  acl : s'.acl? bucket key = some acl
  marker : s'.object? bucket (key ++ slash) =
    if s.object? bucket key = none then none else s.object? bucket (key ++ slash)

/-- A store after a directory was copied to a key. -/
structure MarkerCopied (s s' : Store) (bucket key : String) (acl : Acl) : Prop
    extends SameAround s s' bucket key where
  content : s'.content? bucket (key ++ slash) = some []
  acl : s'.acl? bucket (key ++ slash) = some acl
  gone : s'.object? bucket key = none

theorem ne_append_slash (key : String) : key ≠ key ++ slash := by
  intro h
  have hlength := congrArg String.length h
  simp [slash] at hlength

namespace Cleared

variable {s s₁ s' : Store} {bucket key : String} {isDirectory : Bool} {acl : Acl}

theorem others (h : Cleared s bucket key isDirectory s₁) {bucket' key' : String}
    (hne : ¬ (bucket' = bucket ∧ (key' = key ∨ key' = key ++ slash))) :
    s₁.object? bucket' key' = s.object? bucket' key' := by
  cases h with
  | forDirectory removed => exact removed.others _ _ fun h => hne ⟨h.1, .inl h.2⟩
  | forFile _ removed => exact removed.others _ _ fun h => hne ⟨h.1, .inr h.2⟩
  | ontoFile _ => rfl

theorem bucket_none_iff (h : Cleared s bucket key isDirectory s₁) (name : String) :
    s₁.bucket? name = none ↔ s.bucket? name = none := by
  cases h with
  | forDirectory removed => exact removed.buckets name
  | forFile _ removed => exact removed.buckets name
  | ontoFile _ => exact Iff.rfl

/-- Making way opens and closes no session. -/
theorem sessions (h : Cleared s bucket key isDirectory s₁) :
    s₁.uploads = s.uploads ∧ s₁.opened = s.opened := by
  cases h with
  | forDirectory removed => exact ⟨removed.uploads, removed.opened⟩
  | forFile _ removed => exact ⟨removed.uploads, removed.opened⟩
  | ontoFile _ => exact ⟨rfl, rfl⟩

section Written

variable {written : String} {data : Bytes}
  (hbuckets : ∀ name, s'.bucket? name = none ↔ s₁.bucket? name = none)
  (huploads : s'.uploads = s₁.uploads ∨ s'.uploads = s₁.uploads.erase (Store.uploadId s₁.opened))
include hbuckets huploads

/-- What is written at the key or the marker behind making way changes nothing else. -/
theorem sameAround (h : Cleared s bucket key isDirectory s₁)
    (hwritten : written = key ∨ written = key ++ slash)
    (hwrote : Store.Wrote s₁ s' bucket written data acl) : SameAround s s' bucket key := by
  obtain ⟨hkept, hopened⟩ := h.sessions
  refine ⟨fun bucket' key' hne => ?_, fun name => ?_, fun hregular => ?_⟩
  · rw [hwrote.others bucket' key' fun heq => hne ⟨heq.1, heq.2 ▸ hwritten⟩, h.others hne]
  · rw [hbuckets, h.bucket_none_iff]
  · rw [hkept, hopened, hregular.erase_next, or_self] at huploads
    exact huploads

theorem fileCopied (h : Cleared s bucket key false s₁)
    (hwrote : Store.Wrote s₁ s' bucket key data acl) : FileCopied s s' bucket key data acl := by
  have hmarker : s'.object? bucket (key ++ slash) = s₁.object? bucket (key ++ slash) :=
    hwrote.others _ _ fun heq => ne_append_slash key heq.2.symm
  refine ⟨h.sameAround hbuckets huploads (.inl rfl) hwrote, hwrote.content, hwrote.acl, ?_⟩
  rw [hmarker]
  cases h with
  | forFile unstored removed => rw [if_pos unstored, removed.gone]
  | ontoFile stored => rw [if_neg stored]

theorem markerCopied (h : Cleared s bucket key true s₁)
    (hwrote : Store.Wrote s₁ s' bucket (key ++ slash) [] acl) :
    MarkerCopied s s' bucket key acl := by
  refine ⟨h.sameAround hbuckets huploads (.inr rfl) hwrote, hwrote.content, hwrote.acl, ?_⟩
  cases h with
  | forDirectory removed =>
    rw [hwrote.others _ _ fun heq => ne_append_slash key heq.2, removed.gone]

end Written

end Cleared

/-! ## Copying -/

/-- What copying an entry to another place of its filesystem comes to: `a` has the objects of the
bucket of the source, and `b` those of the bucket of the target. -/
inductive Copied (s : Store) (source target : Path) (bucket : String) (a b : Bucket)
    (options : CopyMode) : Result Unit → Store → Prop
  | missing {e : FsError} (vacant : ¬ Occupied a source.key) (isMissing : e.isMissing = true) :
      Copied s source target bucket a b options (.error e) s
  | kept (present : Occupied a source.key) (there : Occupied b target.key)
      (keeps : options.replaceExisting = false) :
      Copied s source target bucket a b options (.error (.alreadyExists target.render)) s
  | refused (present : Occupied a source.key) (replaces : options.replaceExisting = true)
      (unstored : target.key ∉ b.keys) (content : HasContent b target.key) :
      Copied s source target bucket a b options (.error (.directoryNotEmpty target.render)) s
  | file {o : ObjectRecord} {s' : Store} (stored : a.get? source.key = some o)
      (free : options.MayWrite b target.key)
      (copied : FileCopied s s' bucket target.key o.data (options.acl.getD .byDefault)) :
      Copied s source target bucket a b options (.ok ()) s'
  | directory {s' : Store} (unstored : source.key ∉ a.keys) (below : HasBelow a source.key)
      (free : options.MayWrite b target.key)
      (copied : MarkerCopied s s' bucket target.key (options.acl.getD .byDefault)) :
      Copied s source target bucket a b options (.ok ()) s'

namespace Files

variable {f : Files} {source target : Path} {fs : FileSystem} {bucket bucket' : String}
  {ns ns' : List String} {s s₁ : Store} (file : LocalFile)

/-- The status of names says what their bucket has; a bucket that is not there has nothing. -/
theorem Locates.status_anywhere (h : f.Locates source fs bucket ns) (hne : ns ≠ []) (s : Store) :
    ∃ r, (f.status source).run.run Store.handler (s, file) = (r, (s, file)) ∧
      StatusOf ((s.bucket? bucket).getD .empty) ns r := by
  cases hb : s.bucket? bucket with
  | some b => exact h.status_run file hb
  | none =>
    obtain ⟨e, hrun, hmissing⟩ := FileStatus.resolve_nowhere fs.access file hb (joined ns)
    refine ⟨_, ?_, .nothing (fun hfile => ?_) (fun hdirectory => ?_) hmissing⟩
    · rw [status, h.locate_eq, Action.ofResult_ok_bind]
      exact hrun
    · exact absurd hfile.stored List.not_mem_nil
    · obtain ⟨k, hk, -⟩ := hdirectory.resolve_left hne
      exact absurd hk List.not_mem_nil

theorem object?_eq_get? (s : Store) (bucket key : String) :
    s.object? bucket key = ((s.bucket? bucket).getD .empty).get? key := by
  unfold Store.object?
  cases s.bucket? bucket with
  | none => rfl
  | some b => rfl

/-- Another path of the same filesystem names neither the object nor the marker of this one. -/
theorem Locates.apart (hs : f.Locates source fs bucket ns) (ht : f.Locates target fs bucket' ns')
    (hdifferent : source ≠ target) :
    ¬ (bucket = bucket' ∧ (source.key = target.key ∨ source.key = target.key ++ slash)) := by
  rw [hs.key_eq, ht.key_eq]
  rintro ⟨rfl, heq | heq⟩
  · apply hdifferent
    rw [hs.path_eq, ht.path_eq, joined_inj hs.isName ht.isName heq]
  · have hends := endsInSeparator_joined hs.isName
    rw [heq, endsInSeparator_append_slash] at hends
    cases hends

section Last

variable {options : CopyMode} (ht : f.Locates target fs bucket' ns') (hne : ns' ≠ [])
  {b₁ : Bucket} (hb₁ : s₁.bucket? bucket' = some b₁)
include ht hne hb₁

/-- The last step of copying a file. -/
theorem Locates.transfer_run (hclear : Cleared s bucket' target.key false s₁) {data : Bytes}
    (hcontent : (Transfer.Source.object source).content? s₁ file = some data)
    (hbound : data.length < 2 ^ 63)
    (hcount : Transfer.partCount (options.transferOptions fs) data.length <
      PlannedPart.numberLimit) :
    ∃ r s', (Transfer.copy fs.access f.schedule source target options.acl
        (options.transferOptions fs)).run.run Store.handler (s₁, file) = (.ok r, (s', file)) ∧
      FileCopied s s' bucket' target.key data (options.acl.getD .byDefault) := by
  obtain ⟨s', hsend, hwrote, huploads⟩ := Transfer.transfer_wrote fs.access f.schedule options.acl
    (ht.objectAt_eq hne) hb₁ hcontent hbound hcount
  rw [← ht.key_eq] at hwrote
  have hbuckets := Store.handler_serves.bucket_none_iff
    ((Transfer.Source.object source).transfer fs.access f.schedule target options.acl
      (options.transferOptions fs)).run (s₁, file)
  rw [hsend] at hbuckets
  exact ⟨_, s', hsend, hclear.fileCopied hbuckets huploads hwrote⟩

/-- The last step of copying a directory. -/
theorem Locates.putMarker_run (hclear : Cleared s bucket' target.key true s₁) :
    ∃ r s', (Action.ask fs.access (.put bucket' (insidePrefix (joined ns')) [] options.acl)).run.run
        Store.handler (s₁, file) = (.ok r, (s', file)) ∧
      MarkerCopied s s' bucket' target.key (options.acl.getD .byDefault) := by
  obtain ⟨s', hput, hwrote, huploads⟩ :=
    put_wrote file hb₁ fs.access (insidePrefix (joined ns')) [] options.acl
  have hbuckets := Store.handler_serves.bucket_none_iff
    (Action.ask fs.access (.put bucket' (insidePrefix (joined ns')) [] options.acl)).run (s₁, file)
  rw [hput] at hbuckets
  rw [insidePrefix_joined ht.isName hne, ← ht.key_eq] at hwrote
  exact ⟨_, s', hput, hclear.markerCopied hbuckets (.inl huploads) hwrote⟩

end Last

/-- **A copy within a filesystem has exactly the effect it promises**: the outcome is one of
`Copied`, for every store whose pages have room for two entries. -/
theorem copy_exact (f : Files) (s : Store) (file : LocalFile) {source target : Path}
    {fs : FileSystem} {sourceBucket targetBucket : String} {b : Bucket} (options : CopyMode)
    (hsource : source.Proper) (htarget : target.Proper) (hdifferent : source ≠ target)
    (hopen : f.openFileSystem source = .ok fs) (hsame : target.fs = source.fs)
    (hsourceBucket : source.bucket? = some sourceBucket)
    (htargetBucket : target.bucket? = some targetBucket) (hsourceKey : source.key ≠ "")
    (htargetKey : target.key ≠ "") (hb : s.bucket? targetBucket = some b) (hpage : 2 ≤ s.pageLimit)
    (hcount : ∀ data, s.content? sourceBucket source.key = some data → data.length < 2 ^ 63 ∧
      Transfer.partCount (options.transferOptions fs) data.length < PlannedPart.numberLimit) :
    ∃ r s', (f.copy source target options).run.run Store.handler (s, file) = (r, (s', file)) ∧
      Copied s source target targetBucket ((s.bucket? sourceBucket).getD .empty) b options r s' := by
  have hs := Locates.of_proper hsource hopen hsourceBucket
  have ht := Locates.of_proper htarget (openFileSystem_congr hopen hsame) htargetBucket
  have hsne : source.keyNames ≠ [] := fun hnil => hsourceKey (hs.key_eq_empty_iff.2 hnil)
  have htne : target.keyNames ≠ [] := fun hnil => htargetKey (ht.key_eq_empty_iff.2 hnil)
  have happart := hs.apart ht hdifferent
  obtain ⟨r, hrun, hstatus⟩ := hs.status_anywhere file hsne s
  rw [copy, if_neg hdifferent]
  cases r with
  | error e =>
    cases hstatus with
    | nothing unstored empty isMissing =>
      have hvacant : ¬ Occupied ((s.bucket? sourceBucket).getD .empty) source.key :=
        not_occupied hsne unstored empty
      exact ⟨_, s, Action.run_bind_error hrun, .missing hvacant isMissing⟩
  | ok found =>
    have hpresent : Occupied ((s.bucket? sourceBucket).getD .empty) source.key := by
      cases hstatus with
      | file stored _ => exact .inl stored.stored
      | directory _ below _ => exact .inr (below.resolve_left hsne)
    obtain ⟨cleared, s₁, hclear, hclearing⟩ :=
      ht.clearTarget_run file hb htne options found.isDirectory hpage
    rw [Action.run_bind_ok hrun, ht.locate_eq, Action.ofResult_ok_bind]
    dsimp only
    cases hclearing with
    | kept there keeps => exact ⟨_, s, Action.run_bind_error hclear, .kept hpresent there keeps⟩
    | refused replaces unstored content =>
      exact ⟨_, s, Action.run_bind_error hclear, .refused hpresent replaces unstored content⟩
    | cleared free hcleared =>
      obtain ⟨b₁, hb₁⟩ : ∃ b₁, s₁.bucket? targetBucket = some b₁ := by
        rw [← Option.ne_none_iff_exists', ne_eq, hcleared.bucket_none_iff, hb]
        exact Option.some_ne_none b
      rw [Action.run_bind_ok hclear]
      cases hstatus with
      | file stored isFile =>
        obtain ⟨o, ho⟩ := KeyMap.mem_keys_iff.1 stored.stored
        have hobject : s.object? sourceBucket source.key = some o :=
          (object?_eq_get? s sourceBucket source.key).trans ho
        obtain ⟨hbound, hparts⟩ := hcount o.data (by rw [Store.content?, hobject, Option.map_some])
        have hcontent : (Transfer.Source.object source).content? s₁ file = some o.data := by
          rw [Transfer.Source.content?, hs.objectAt_eq hsne, ← hs.key_eq]
          dsimp only
          rw [Store.content?, hcleared.others happart, hobject, Option.map_some]
        rw [isFile] at hcleared ⊢
        obtain ⟨sent, s', hsend, hcopied⟩ :=
          ht.transfer_run file htne hb₁ hcleared hcontent hbound hparts
        refine ⟨_, s', ?_, .file ho free hcopied⟩
        simp only [Bool.false_eq_true, if_false, if_pos hsame.symm]
        exact Action.run_bind_ok hsend
      | directory unstored below isDirectory =>
        have hunstored : source.key ∉ ((s.bucket? sourceBucket).getD .empty).keys := fun hmem =>
          unstored ⟨hsne, hmem⟩
        rw [isDirectory] at hcleared ⊢
        obtain ⟨etag, s', hput, hcopied⟩ := ht.putMarker_run file htne hb₁ hcleared
        exact ⟨_, s', Action.run_bind_ok hput,
          .directory hunstored (below.resolve_left hsne) free hcopied⟩

/-- Five bytes that are copied in three parts onto a directory with nothing but a marker. -/
theorem copy_exact_onto_directory :
    let fs : FileSystem := ⟨0, ⟨"", ""⟩, {}, ⟨0, 0⟩, true⟩
    let f : Files := { fileSystems := [fs], rounds := 3 }
    let source : Path := ⟨0, true, ["b", "a"]⟩
    let target : Path := ⟨0, true, ["b", "d"]⟩
    let options : CopyMode := { replaceExisting := true, chunkSize := some 2 }
    let b : Bucket := ((KeyMap.empty : Bucket).insert "a"
      ⟨[1, 2, 3, 4, 5], "", .epoch, .publicRead⟩).insert "d/" ⟨[], "", .epoch, .byDefault⟩
    let s : Store := (Store.new 2 .epoch).setBucket "b" b
    source.Proper ∧ target.Proper ∧ source ≠ target ∧ f.openFileSystem source = .ok fs ∧
      target.fs = source.fs ∧ source.bucket? = some "b" ∧ target.bucket? = some "b" ∧
      source.key ≠ "" ∧ target.key ≠ "" ∧ s.bucket? "b" = some b ∧ 2 ≤ s.pageLimit ∧
      s.content? "b" source.key = some [1, 2, 3, 4, 5] ∧
      Transfer.partCount (options.transferOptions fs) 5 = 3 ∧
      ∃ r s', (f.copy source target options).run.run Store.handler (s, .absent) =
          (r, (s', .absent)) ∧
        Copied s source target "b" ((s.bucket? "b").getD .empty) b options r s' := by
  intro fs f source target options b s
  have hsource : source.Proper := Path.proper_of_isName (by decide)
  have htarget : target.Proper := Path.proper_of_isName (by decide)
  have hdifferent : source ≠ target := by decide
  have hopen : f.openFileSystem source = .ok fs := rfl
  have hsourceKey : source.key ≠ "" := by decide
  have htargetKey : target.key ≠ "" := by decide
  have hb : s.bucket? "b" = some b := by simp [s]
  have hcontent : s.content? "b" source.key = some [1, 2, 3, 4, 5] := rfl
  have hparts : Transfer.partCount (options.transferOptions fs) 5 = 3 := by decide
  refine ⟨hsource, htarget, hdifferent, hopen, rfl, rfl, rfl, hsourceKey, htargetKey, hb, by decide,
    hcontent, hparts, ?_⟩
  refine copy_exact f s .absent options hsource htarget hdifferent hopen rfl rfl rfl hsourceKey
    htargetKey hb (by decide) fun data hdata => ?_
  rw [hcontent] at hdata
  obtain rfl := Option.some.inj hdata
  exact ⟨by decide, by decide⟩

end Files

end BucketFs
