import BucketFs.Files.Operation
import BucketFs.Proofs.Files.Touched
import BucketFs.Proofs.Store.WellKeyed

/-!
# The keys that file operations write

* `Handler.Quiet` — a handler whose calls that only ask change nothing.
* `ChildStream.collect_named` — the children of a directory of names have names.
* `Files.MarksBucket` — a copy that puts the marker of a directory onto a bucket;
  `Files.copy_writes` — every other copy writes canonical keys only.
* `Files.OntoBucket` — an operation that makes such a copy; `Files.perform_writes` — every other
  operation writes canonical keys only.
-/

namespace BucketFs

open BucketFs.Text

variable {σ α : Type} {h : Handler σ} {reaches : Access → Prop} {view : σ → Store}

/-! ## Asking changes nothing -/

/-- A handler whose calls that only ask leave the state as it is. -/
def Handler.Quiet (h : Handler σ) : Prop :=
  ∀ (through : Access) (c : StoreCall) (s : σ), c.Asks → (h (.store through c) s).2 = s

theorem Store.answer_asks {c : StoreCall} (hc : c.Asks) (s : Store) : (s.answer c).2 = s := by
  cases c with
  | head | list | get | buckets => rfl
  | _ => exact hc.elim

theorem Store.several_quiet (faults : StoreId → StoreCall → Option FsError) :
    (Store.several faults).Quiet := by
  intro through c s hc
  simp only [Store.several]
  split
  · rfl
  · refine Prod.ext (funext fun i => ?_) rfl
    dsimp only
    split
    · exact Store.answer_asks hc _
    · rfl

theorem Handler.Quiet.status_run (hquiet : h.Quiet) (f : Files) (p : Path) (s : σ) :
    ((f.status p).run.run h s).2 = s := by
  have hstill : (f.status p).Always h fun c t => (h c t).2 = t :=
    Files.status_asks fun fs _ c t hc => hquiet fs.access c t hc
  exact (hstill s).keeps (fun t => t = s) (fun c t hc ht => hc.trans ht) rfl

theorem Handler.Quiet.ensureEmpty_run (hquiet : h.Quiet) (f : Files) (p : Path) (s : σ) :
    ((f.ensureEmpty p).run.run h s).2 = s := by
  have hstill : (f.ensureEmpty p).Always h fun c t => (h c t).2 = t :=
    Files.ensureEmpty_asks fun fs _ c t hc => hquiet fs.access c t hc
  exact (hstill s).keeps (fun t => t = s) (fun c t hc ht => hc.trans ht) rfl

/-! ## The children of a directory of names -/

namespace ChildStream

/-- Whether a stream lists a bucket that has a name, and its buffered children have names. -/
structure Named (s : ChildStream) : Prop where
  bucket : IsName s.bucket
  buffer : ∀ p ∈ s.buffer, p.Named

variable {s : ChildStream}

theorem Named.addChild (hs : s.Named) (entry : String) : (s.addChild entry).Named := by
  unfold ChildStream.addChild
  split
  · exact hs
  · split
    · exact hs
    · refine ⟨hs.bucket, fun p hp => ?_⟩
      rcases List.mem_append.1 hp with hp | hp
      · exact hs.buffer p hp
      · rw [List.mem_singleton.1 hp]
        exact Path.named_ofBucketKey s.fs hs.bucket entry

theorem Named.accept (hs : s.Named) (page : ListPage) : (s.accept page).Named := by
  have hfold : ∀ (entries : List String) {s : ChildStream}, s.Named →
      (entries.foldl ChildStream.addChild s).Named := by
    intro entries
    induction entries with
    | nil => exact fun hs => hs
    | cons entry rest ih => exact fun hs => ih (hs.addChild entry)
  have hchildren := hfold (s.childEntries page) hs
  unfold ChildStream.accept
  dsimp only
  split
  · exact ⟨hchildren.bucket, hchildren.buffer⟩
  · exact ⟨hchildren.bucket, hchildren.buffer⟩

theorem Named.receive (hs : s.Named) (reply : Result ListPage) : (s.receive reply).2.Named := by
  have hasked : ({ s with token := none } : ChildStream).Named := ⟨hs.bucket, hs.buffer⟩
  unfold ChildStream.receive
  dsimp only
  split
  · exact hasked
  · split
    · exact hasked
    · exact hasked.accept _

theorem Named.drain (rounds : Nat) : ∀ {s : ChildStream} (t : σ), s.Named →
    ∀ p ∈ ((s.drain rounds).run h t).1.1, p.Named := by
  induction rounds with
  | zero =>
    intro s t hs
    rw [ChildStream.drain]
    split <;> exact hs.buffer
  | succ rounds ih =>
    intro s t hs
    rw [ChildStream.drain]
    split
    · exact hs.buffer
    · have hemptied : ({ s with buffer := [] } : ChildStream).Named :=
        ⟨hs.bucket, fun p hp => (List.not_mem_nil hp).elim⟩
      have hnext := hemptied.receive (h (.store s.access (.list s.request)) t).1
      rw [Program.run_call]
      split
      · exact hs.buffer
      · rename_i next hreceive
        rw [hreceive] at hnext
        rw [Program.run_bind]
        intro p hp
        rcases List.mem_append.1 hp with hp | hp
        · exact hs.buffer p hp
        · exact ih _ hnext p hp

/-- **The children that a stream over names collects** have names. -/
theorem collect_named {rounds : Nat} {t u : σ} {inside : List Path} (hs : s.Named)
    (hrun : (s.collect rounds).run.run h t = (.ok inside, u)) : ∀ p ∈ inside, p.Named := by
  have hdrain := hs.drain (h := h) rounds t
  rw [ChildStream.collect, ExceptT.run_mk, Program.run_bind] at hrun
  split at hrun
  · rename_i paths hpaths
    rw [hpaths] at hdrain
    cases hrun
    exact hdrain
  · cases hrun

end ChildStream

namespace Files

variable {f : Files} {p : Path} {fs : FileSystem} {bucket key : String}

theorem locates_of_locate (hp : p.Proper) (hlocate : f.locate p = .ok (fs, bucket, key)) :
    ∃ ns, f.Locates p fs bucket ns ∧ key = joined ns := by
  have hopen := openFileSystem_of_locate hlocate
  rcases locates_or_error hp hopen with ⟨bucket', ns, hat⟩ | herror
  · have heq := hat.locate_eq
    rw [hlocate] at heq
    cases heq
    exact ⟨ns, hat, rfl⟩
  · rw [hlocate] at herror
    cases herror

/-- The stream over a directory of names. -/
theorem children_named (hp : p.Named) {stream : ChildStream} (hstream : f.children p = .ok stream) :
    stream.Named := by
  unfold children at hstream
  cases hlocate : f.locate p with
  | error e =>
    rw [hlocate] at hstream
    cases hstream
  | ok place =>
    obtain ⟨fs, bucket, key⟩ := place
    obtain ⟨ns, hat, -⟩ := locates_of_locate hp.proper hlocate
    rw [hlocate] at hstream
    obtain ⟨huntouched, -, hbucket, -⟩ := ChildStream.new_untouched hstream
    refine ⟨?_, fun q hq => ?_⟩
    · rw [hbucket]
      rw [hat.path_eq] at hp
      exact hp bucket List.mem_cons_self
    · rw [huntouched.buffer] at hq
      cases hq

/-! ## What is written -/

theorem mayAsk_writes (through : Access) :
    through.MayAsk (Call.Writes h reaches view CanonicalKey) := by
  intro c s hc _ _ bucket key hstored
  have htouched := StoreCall.touched?_of_stored? hstored
  rw [hc.touched?] at htouched
  cases htouched

theorem status_writes (f : Files) (p : Path) :
    (f.status p).Always h (Call.Writes h reaches view CanonicalKey) :=
  status_asks fun _ _ => mayAsk_writes _

theorem exists_writes (f : Files) (p : Path) :
    (f.exists? p).Always h (Call.Writes h reaches view CanonicalKey) :=
  exists_asks fun _ _ => mayAsk_writes _

theorem ensureEmpty_writes (f : Files) (p : Path) :
    (f.ensureEmpty p).Always h (Call.Writes h reaches view CanonicalKey) :=
  ensureEmpty_asks fun _ _ => mayAsk_writes _

/-- Deleting stores nothing. -/
theorem unlink_writes (f : Files) (p : Path) (isDirectory : Bool) :
    (f.unlink p isDirectory).Always h (Call.Writes h reaches view CanonicalKey) := by
  unfold unlink
  refine (Action.always_ofResult _).bind fun place =>
    Action.always_ask fun s _ _ bucket key hstored => ?_
  cases hstored

/-- An action that knows the place of a proper path. -/
theorem located_writes (hp : p.Proper) {a : FileSystem × String × String → Action α} {s : σ}
    (ha : ∀ fs bucket ns, f.Locates p fs bucket ns →
      (a (fs, bucket, joined ns)).run.Along h (Call.Writes h reaches view CanonicalKey) s) :
    (Action.ofResult (f.locate p) >>= a).run.Along h (Call.Writes h reaches view CanonicalKey)
      s := by
  cases hlocate : f.locate p with
  | error e => exact Action.always_throw e s
  | ok place =>
    obtain ⟨fs, bucket, key⟩ := place
    obtain ⟨ns, hat, rfl⟩ := locates_of_locate hp hlocate
    exact ha fs bucket ns hat

/-- The marker of a directory that is not a bucket. -/
theorem marker_writes {ns : List String} (hat : f.Locates p fs bucket ns) (hne : ns ≠ [])
    (acl : Option Acl) :
    (Action.ask fs.access (.put bucket (insidePrefix (joined ns)) [] acl)).Always h
      (Call.Writes h reaches view CanonicalKey) := by
  refine Action.always_ask fun s _ _ bucket' key' hstored => ?_
  cases hstored
  rw [insidePrefix_joined hat.isName hne]
  exact canonicalKey_marker hne hat.isName

theorem makeDirectory_writes (f : Files) (hp : p.Proper) :
    (f.makeDirectory p).Always h (Call.Writes h reaches view CanonicalKey) := by
  refine makeDirectory_always (fun _ _ => mayAsk_writes _) fun place hplace hkey => ?_
  obtain ⟨ns, hat, hjoined⟩ := locates_of_locate hp hplace
  rw [hjoined] at hkey ⊢
  exact marker_writes hat (fun hnil => hkey (hat.key_eq_empty_iff.2 hnil)) _

theorem delete_writes (f : Files) (p : Path) :
    (f.delete p).Always h (Call.Writes h reaches view CanonicalKey) :=
  delete_always (fun _ _ => mayAsk_writes _) (unlink_writes f p)

theorem clearTarget_writes (f : Files) (p : Path) (replace isDirectory : Bool) :
    (f.clearTarget p replace isDirectory).Always h (Call.Writes h reaches view CanonicalKey) :=
  clearTarget_always (fun _ _ => mayAsk_writes _) (unlink_writes f p) replace isDirectory

theorem canonicalKey_of_objectAt (hp : p.Proper)
    (hobject : Transfer.objectAt p = .ok (bucket, key)) : CanonicalKey key := by
  unfold Transfer.objectAt at hobject
  split at hobject
  · split at hobject
    · cases hobject
    · rename_i hkey
      cases hobject
      have hne : p.keyNames ≠ [] := fun hnil => hkey (by rw [Path.key_eq, hnil, joined_nil])
      exact canonicalKey_joined hne hp.isName
  · cases hobject

/-- A transfer writes the key of its path. -/
theorem transfer_writes (hserves : h.Serves reaches view) (hp : p.Proper) (source : Transfer.Source)
    (through : Access) (schedule : Schedule) (acl : Option Acl) (options : TransferOptions) :
    (source.transfer through schedule p acl options).Always h
      (Call.Writes h reaches view CanonicalKey) := by
  cases htarget : Transfer.objectAt p with
  | error e =>
    obtain ⟨fault, heq⟩ := source.transfer_refused through schedule htarget acl options
    rw [heq]
    exact Action.always_throw _
  | ok location =>
    obtain ⟨bucket, key⟩ := location
    intro s
    refine (Transfer.transfer_within hserves schedule htarget source acl options s).mono ?_
    apply Call.Within.writes
    rintro through' bucket' key' ⟨-, -, rfl⟩
    exact canonicalKey_of_objectAt hp htarget

theorem write_writes (hserves : h.Serves reaches view) (hp : p.Proper) (data : Bytes) :
    (f.write p data).Always h (Call.Writes h reaches view CanonicalKey) := by
  unfold write
  exact (Action.always_ofResult _).bind fun fs =>
    transfer_writes hserves hp (.bytes data) fs.access _ _ _

theorem uploadLocal_writes (hserves : h.Serves reaches view) (hp : p.Proper) (file : String) :
    (f.uploadLocal file p).Always h (Call.Writes h reaches view CanonicalKey) := by
  unfold uploadLocal
  exact (Action.always_ofResult _).bind fun fs =>
    transfer_writes hserves hp (.file file) fs.access _ _ _

/-- Whether a copy puts the marker of a directory onto a bucket: the bucket is cleared for it, and
the marker is written under the empty key. -/
def MarksBucket (h : Handler σ) (f : Files) (source target : Path) (options : CopyMode) (s : σ) :
    Prop :=
  source ≠ target ∧ ∃ found t fs bucket u etag,
    (f.status source).run.run h s = (.ok found, t) ∧ found.isDirectory = true ∧
    f.locate target = .ok (fs, bucket, "") ∧
    (f.clearTarget target options.replaceExisting true).run.run h t = (.ok (), u) ∧
    (h (.store fs.access (.put bucket "" [] options.acl)) u).1 = .ok etag

/-- A copy of a file puts no marker. -/
theorem not_marksBucket {source target : Path} {options : CopyMode} {s t : σ} {found : FileStatus}
    (hstatus : (f.status source).run.run h s = (.ok found, t))
    (hfile : found.isDirectory = false) : ¬ f.MarksBucket h source target options s := by
  rintro ⟨-, found', t', -, -, -, -, hstatus', hdirectory, -⟩
  rw [hstatus] at hstatus'
  cases hstatus'
  rw [hfile] at hdirectory
  cases hdirectory

/-- **A copy writes canonical keys**, unless it puts the marker of a directory onto a bucket. -/
theorem copy_writes (hserves : h.Serves reaches view) {source target : Path}
    (htarget : target.Proper) (options : CopyMode) {s : σ}
    (hmarks : ¬ f.MarksBucket h source target options s) :
    (f.copy source target options).run.Along h (Call.Writes h reaches view CanonicalKey) s := by
  unfold copy
  split
  · exact Action.always_pure _ s
  · rename_i hother
    refine Action.along_bind (status_writes f source s) fun found t hstatus => ?_
    refine located_writes htarget fun fs bucket ns hat => ?_
    dsimp only
    refine Action.along_bind (clearTarget_writes f target _ _ t) fun _ u hclear => ?_
    have htransfer := transfer_writes (h := h) hserves htarget
    split
    · rename_i hdirectory
      refine Action.along_bind ?_ fun _ u' _ => Action.always_pure _ u'
      by_cases hne : ns = []
      · -- the marker of a bucket would have the empty key, so the call must fail
        subst hne
        rw [hdirectory] at hclear
        refine ⟨fun _ ⟨etag, hetag⟩ => absurd ?_ hmarks, trivial⟩
        exact ⟨hother, found, t, fs, bucket, u, etag, hstatus, hdirectory, hat.locate_eq, hclear,
          hetag⟩
      · exact marker_writes hat hne _ u
    · split
      · exact ((htransfer (.object source) _ _ _ _).bind fun _ => Action.always_pure _) u
      · have hread : (f.read source).Always h (Call.Writes h reaches view CanonicalKey) :=
          read_asks fun _ _ => mayAsk_writes _
        exact (hread.bind fun data =>
          (htransfer (.bytes data) _ _ _ _).bind fun _ => Action.always_pure _) u

/-- **A marker that is put onto a bucket** stands under a key that is not canonical. -/
theorem MarksBucket.spoils {view : StoreId → σ → Store}
    (hserves : ∀ i, h.Serves (fun through => through.store = i) (view i)) {source target : Path}
    {options : CopyMode} {s : σ} (hmarks : f.MarksBucket h source target options s) :
    ∃ i, ¬ (view i ((f.copy source target options).run.run h s).2).WellKeyed := by
  obtain ⟨hother, found, t, fs, bucket, u, etag, hstatus, hdirectory, hlocate, hclear, hetag⟩ :=
    hmarks
  have hask : (Action.ask fs.access (.put bucket (insidePrefix "") [] options.acl)).run.run h u =
      (.ok etag, (h (.store fs.access (.put bucket "" [] options.acl)) u).2) := Prod.ext hetag rfl
  have hrun : (f.copy source target options).run.run h s =
      (.ok (), (h (.store fs.access (.put bucket "" [] options.acl)) u).2) := by
    rw [copy, if_neg hother, Action.run_bind_ok hstatus, hlocate, Action.ofResult_ok_bind]
    dsimp only
    rw [hdirectory, Action.run_bind_ok hclear, if_pos rfl, Action.run_bind_ok hask]
    rfl
  obtain ⟨hput, hview⟩ := (hserves fs.access.store).passed rfl hetag
  obtain ⟨o, ho⟩ := Store.put_stored hput
  refine ⟨fs.access.store, fun hwell => not_canonicalKey_empty ?_⟩
  rw [hrun, hview] at hwell
  exact hwell bucket "" o ho

theorem move_writes (hserves : h.Serves reaches view) (hquiet : h.Quiet) {source target : Path}
    (htarget : target.Proper) (options : CopyMode) {s : σ}
    (hmarks : ((f.ensureEmpty source).run.run h s).1 = .ok () →
      ¬ f.MarksBucket h source target options s) :
    (f.move source target options).run.Along h (Call.Writes h reaches view CanonicalKey) s := by
  have hrest : ¬ f.MarksBucket h source target options s →
      (f.copy source target options >>= fun _ => f.delete source).run.Along h
        (Call.Writes h reaches view CanonicalKey) s := fun hnot =>
    Action.along_bind (copy_writes hserves htarget options hnot)
      fun _ t _ => delete_writes f source t
  unfold move
  split
  · exact Action.always_pure _ s
  · refine Action.along_bind (status_writes f source s) fun found t hstatus => ?_
    -- asking for the status has changed nothing, and neither does looking into the directory
    have ht := hquiet.status_run f source s
    rw [hstatus] at ht
    obtain rfl : t = s := ht
    dsimp only
    split
    · refine Action.along_bind (ensureEmpty_writes f source t) fun _ u hempty => ?_
      have hu := hquiet.ensureEmpty_run f source t
      rw [hempty] at hu
      obtain rfl : u = t := hu
      exact hrest (hmarks (by rw [hempty]))
    · rename_i hfile
      exact hrest (not_marksBucket hstatus (by simpa using hfile))

/-- A tree copy writes canonical keys: it copies files only, and makes no bucket. -/
theorem copyAll_writes (hserves : h.Serves reaches view) (hquiet : h.Quiet) {source target : Path}
    (hsource : source.Named) (htarget : target.Named) (options : CopyMode) :
    (f.copyAll source target options).Always h (Call.Writes h reaches view CanonicalKey) := by
  unfold copyAll
  simp only [Action.throw_bind]
  split
  · exact Action.always_throw _
  · refine copyPending_always (Q := fun source target => source.Named ∧ target.Named)
      (fun _ => mayAsk_writes _) ?_ ?_ ?_ _ _ _ ?_
    · exact fun _ target hnamed => makeDirectory_writes f hnamed.2.proper
    · intro source target s found t hnamed hstatus hfile
      have ht := hquiet.status_run f source s
      rw [hstatus] at ht
      obtain rfl : t = s := ht
      -- the status has just been asked for, and nothing has changed since
      exact copy_writes hserves hnamed.2.proper options (not_marksBucket hstatus hfile)
    · intro source target stream s inside t hnamed hchildren hcollect child hchild name hname
      have hinside := ChildStream.collect_named (children_named hnamed.1 hchildren) hcollect
      exact ⟨hinside child hchild, hnamed.2.resolve ((hinside child hchild).lastName hname)⟩
    · intro entry hentry
      rw [List.mem_singleton.1 hentry]
      exact ⟨hsource, htarget⟩

/-- Whether an operation copies or moves a directory onto a bucket and puts its marker there. -/
def OntoBucket (h : Handler σ) (f : Files) (s : σ) : FileOperation → Prop
  | .copy source target options => f.MarksBucket h source target options s
  | .move source target options =>
    ((f.ensureEmpty source).run.run h s).1 = .ok () ∧ f.MarksBucket h source target options s
  | _ => False

/-- **Every operation writes canonical keys**, given paths of names, unless it puts the marker of a
directory onto a bucket. -/
theorem perform_writes (hserves : h.Serves reaches view) (hquiet : h.Quiet) {op : FileOperation}
    (hnamed : ∀ p ∈ op.paths, p.Named) {s : σ} (hroot : ¬ f.OntoBucket h s op) :
    (f.perform op).run.Along h (Call.Writes h reaches view CanonicalKey) s := by
  cases op with
  | status p => exact status_writes f p s
  | exists? p => exact exists_writes f p s
  | children dir => exact Action.always_ofResult _ s
  | read p =>
    have hread : (f.read p).Always h (Call.Writes h reaches view CanonicalKey) :=
      read_asks fun _ _ => mayAsk_writes _
    exact hread s
  | write p data =>
    have hp := (hnamed p List.mem_cons_self).proper
    exact write_writes hserves hp data s
  | uploadLocal file p =>
    have hp := (hnamed p List.mem_cons_self).proper
    exact uploadLocal_writes hserves hp file s
  | makeDirectory dir => exact makeDirectory_writes f (hnamed dir List.mem_cons_self).proper s
  | delete p => exact delete_writes f p s
  | deleteAny p =>
    exact deleteAny_always (fun _ _ => mayAsk_writes _) (unlink_writes f p) s
  | copy source target options =>
    have htarget := hnamed target (List.mem_cons_of_mem _ List.mem_cons_self)
    exact copy_writes hserves htarget.proper options hroot
  | move source target options =>
    have htarget := hnamed target (List.mem_cons_of_mem _ List.mem_cons_self)
    exact move_writes hserves hquiet htarget.proper options fun hempty hmarks =>
      hroot ⟨hempty, hmarks⟩
  | copyAll source target options =>
    exact copyAll_writes hserves hquiet (hnamed source List.mem_cons_self)
      (hnamed target (List.mem_cons_of_mem _ List.mem_cons_self)) options s

end Files

end BucketFs
