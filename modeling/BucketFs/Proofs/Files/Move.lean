import BucketFs.Proofs.Files.Touched

/-!
# Moving a file

A move copies a file and deletes the source.  The two paths may be of one filesystem or of two, and
two filesystems may or may not share a store; every call may fail.

* `Files.Holds` — a path names an object of a store with the given content.
* `status_stored` — while an object is stored, its path is that of a file or cannot be asked about.
* `copy_stores` — a copy that succeeds has stored the content of its source.
* `delete_along`, `delete_failed` — deleting a file touches its object, and nothing where it fails.
* `move_keeps_content` — a move that succeeds leaves the content at the target, and a move that
  fails leaves it at the source.  Paths of two filesystems over one store must not name one object:
  `move_onto_itself` shows that such a move loses it.
-/

namespace BucketFs

open BucketFs.Text

variable {σ : Type} {h : Handler σ}

/-- A handler of several stores that never reports a stored object as missing.  Asking about it may
fail in any other way. -/
def Handler.Honest (h : Handler σ) (view : StoreId → σ → Store) : Prop :=
  ∀ (through : Access) (bucket key : String) (s : σ) (o : ObjectRecord) (e : FsError),
    (view through.store s).object? bucket key = some o →
    (h (.store through (.head bucket key)) s).1 = .error e → e.isMissing = false

theorem Store.several_honest {faults : StoreId → StoreCall → Option FsError}
    (hfaults : ∀ i c e, faults i c = some e → e.isMissing = false) :
    (Store.several faults).Honest fun i s => s.1 i := by
  intro through bucket key s o e ho hreply
  rw [← Bool.not_eq_true]
  intro hmissing
  have hhead := Store.several_failsApart hfaults through.store through (.head bucket key) s e rfl
    hreply hmissing
  simp only [answer, head, find_eq_ok_iff.2 ho] at hhead
  cases hhead

namespace Files

variable {f : Files} {p : Path} {fs : FileSystem} {bucket : String} {ns : List String}

/-! ## Reading -/

theorem Locates.read_eq (hp : f.Locates p fs bucket ns) (hne : ns ≠ []) :
    f.read p = Action.ask fs.access (.get bucket (joined ns) none) := by
  rw [read, hp.objectAt_eq hne, Action.ofResult_ok_bind]
  dsimp only
  rw [fileSystem_of_open hp.opened, Action.ofResult_ok_bind]

/-- Whether a path names an object of a store with the given content. -/
def Holds (f : Files) (s : Store) (p : Path) (d : Bytes) : Prop :=
  ((f.read p).run.run Store.handler (s, .absent)).1 = .ok d

theorem get_eq_ok_iff {s : Store} {key : String} {d : Bytes} :
    s.get bucket key none = .ok d ↔ s.content? bucket key = some d := by
  rw [Store.content?, Option.map_eq_some_iff, Store.get]
  cases hfind : s.find bucket key with
  | error e =>
    constructor
    · intro hd
      cases hd
    · rintro ⟨o, ho, -⟩
      rw [Store.find_eq_ok_iff.2 ho] at hfind
      cases hfind
  | ok o =>
    have ho := Store.find_eq_ok_iff.1 hfind
    constructor
    · intro hd
      exact ⟨o, ho, Except.ok.inj hd⟩
    · rintro ⟨o', ho', rfl⟩
      rw [ho] at ho'
      cases ho'
      rfl

theorem Locates.holds_iff (hp : f.Locates p fs bucket ns) (hne : ns ≠ []) {s : Store} {d : Bytes} :
    f.Holds s p d ↔ s.content? bucket (joined ns) = some d := by
  rw [Holds, hp.read_eq hne]
  exact get_eq_ok_iff

/-- A path that holds something leads to an object. -/
theorem Holds.locates {s : Store} {d : Bytes} (hd : f.Holds s p d) (hp : p.Proper)
    (hopen : f.openFileSystem p = .ok fs) :
    ∃ bucket ns, f.Locates p fs bucket ns ∧ ns ≠ [] := by
  have hobject : ∃ location, Transfer.objectAt p = .ok location := by
    cases hlocation : Transfer.objectAt p with
    | ok location => exact ⟨location, rfl⟩
    | error e =>
      rw [Holds, read, hlocation] at hd
      cases hd
  obtain ⟨location, hlocation⟩ := hobject
  unfold Transfer.objectAt at hlocation
  split at hlocation
  · rename_i bucket hbucket
    split at hlocation
    · cases hlocation
    · rename_i hkey
      refine ⟨bucket, p.keyNames, Locates.of_proper hp hopen hbucket, fun hnil => hkey ?_⟩
      rw [Path.key_eq, hnil, joined_nil]
  · cases hlocation

end Files

/-! ## A stored object -/

section Stored

variable {view : StoreId → σ → Store} {f : Files} {p : Path} {fs : FileSystem} {bucket : String}
  {ns : List String} {s : σ} {o : ObjectRecord}

open Files

/-- **While an object is stored**, a status that is found out is that of a file. -/
theorem status_stored (hhonest : h.Honest view) (hp : f.Locates p fs bucket ns) (hne : ns ≠ [])
    (ho : (view fs.access.store s).object? bucket (joined ns) = some o) {a : FileStatus} {t : σ}
    (hrun : (f.status p).run.run h s = (.ok a, t)) : a.isDirectory = false := by
  have htrim := trimEnd_joined hp.isName
  rw [status, hp.locate_eq, Action.ofResult_ok_bind] at hrun
  dsimp only at hrun
  rw [FileStatus.resolve] at hrun
  generalize trimEnd separator (joined ns) = base at htrim hrun
  subst htrim
  simp only [endsInSeparator_joined hp.isName, hp.key_eq_empty_iff, if_neg hne,
    Bool.false_eq_true, if_false] at hrun
  obtain ⟨object, u, hprobe, hrest⟩ := Action.run_bind_eq_ok hrun
  -- the probe does not come back empty, since the object is there
  have hfound : ∃ info, object = some info := by
    unfold FileStatus.probe at hprobe
    obtain ⟨reply, v, hreply, hprobe⟩ := Action.run_bind_eq_ok hprobe
    rw [Action.run_outcome, Action.run_ask] at hreply
    cases hhead : (h (.store fs.access (.head bucket (joined ns))) s).1 with
    | ok info =>
      rw [hhead] at hreply
      cases hreply
      cases hprobe
      exact ⟨info, rfl⟩
    | error e =>
      rw [hhead] at hreply
      cases hreply
      dsimp only at hprobe
      rw [if_neg (by rw [hhonest _ _ _ s o e ho hhead]; exact Bool.false_ne_true)] at hprobe
      cases hprobe
  obtain ⟨info, rfl⟩ := hfound
  cases hrest
  rw [FileStatus.ofInfo_isDirectory, endsInSeparator_joined hp.isName]

/-- A deletion that fails changes nothing. -/
theorem delete_unchanged {reaches : Access → Prop} {view : σ → Store}
    (hserves : h.Serves reaches view) {through : Access} {key : String} {s : σ} {e : FsError}
    (hfail : (h (.store through (.delete bucket key)) s).1 = .error e) :
    view (h (.store through (.delete bucket key)) s).2 = view s := by
  by_cases hreach : reaches through
  · rcases hserves.reached through (.delete bucket key) s hreach with ⟨hreply, hview⟩ | ⟨-, hview⟩
    · rw [hfail] at hreply
      rw [hview]
      simp only [Store.answer, Store.delete] at hreply ⊢
      split at hreply
      · rfl
      · cases hreply
    · exact hview
  · exact hserves.apart through _ s hreach

/-- Asking for a status changes no object. -/
theorem status_untouched {reaches : Access → Prop} {view : σ → Store}
    (hserves : h.Serves reaches view) {s t : σ} {r : Result FileStatus}
    (hrun : (f.status p).run.run h s = (r, t)) (bucket key : String) :
    (view t).object? bucket key = (view s).object? bucket key := by
  have hsame := hserves.untouched_of_reads (status_reads f p s) bucket key
  rwa [hrun] at hsame

section Delete

variable (hhonest : h.Honest view) (hp : f.Locates p fs bucket ns) (hne : ns ≠ [])
  (ho : (view fs.access.store s).object? bucket (joined ns) = some o)
include hhonest hp hne ho

/-- **Deleting a file touches its object.** -/
theorem delete_along {reaches : Access → Prop} {view' : σ → Store} :
    (f.delete p).run.Along h
      (Call.Within reaches view' (.single fs.access bucket (joined ns))) s := by
  rw [delete, hp.locate_eq, Action.ofResult_ok_bind]
  dsimp only
  rw [if_neg (fun h0 => hne (hp.key_eq_empty_iff.1 h0))]
  refine Action.along_bind (status_reads f p s) fun a t hrun => ?_
  have hfile := status_stored hhonest hp hne ho hrun
  rw [hfile, if_neg Bool.false_ne_true, unlink, hp.locate_eq, Action.ofResult_ok_bind]
  refine ⟨fun _ bucket' key' htouched => ?_, trivial⟩
  cases htouched
  exact ⟨rfl, rfl, rfl⟩

/-- **A file that could not be deleted** is still there, and so is everything else. -/
theorem delete_failed {reaches : Access → Prop} {view' : σ → Store}
    (hserves : h.Serves reaches view') {e : FsError} {t : σ}
    (hrun : (f.delete p).run.run h s = (.error e, t)) (bucket' key' : String) :
    (view' t).object? bucket' key' = (view' s).object? bucket' key' := by
  rw [delete, hp.locate_eq, Action.ofResult_ok_bind] at hrun
  dsimp only at hrun
  rw [if_neg (fun h0 => hne (hp.key_eq_empty_iff.1 h0))] at hrun
  cases hfound : (f.status p).run.run h s with
  | mk r u =>
    have hasked := status_untouched hserves hfound bucket' key'
    cases r with
    | error e' =>
      rw [Action.run_bind_error hfound] at hrun
      cases hrun
      exact hasked
    | ok a =>
      have hfile := status_stored hhonest hp hne ho hfound
      rw [Action.run_bind_ok hfound, hfile, if_neg Bool.false_ne_true, unlink, hp.locate_eq,
        Action.ofResult_ok_bind, Action.run_ask] at hrun
      have hview := delete_unchanged hserves (congrArg Prod.fst hrun)
      rw [hrun] at hview
      rw [hview]
      exact hasked

end Delete

end Stored

/-! ## Copying and moving -/

section Move

variable {view : StoreId → σ → Store} {f : Files} {source target : Path}
  {origin destination : FileSystem} {bucket : String} {ns : List String} {s t : σ}
  {o : ObjectRecord}

open Files

/-- What is at the target of a copy is not the object at its source. -/
theorem not_entryAt_source (hs : f.Locates source origin bucket ns) (hne : ns ≠ [])
    {bucket' : String} {ns' : List String} (ht : f.Locates target destination bucket' ns')
    (hapart : origin.access.store = destination.access.store →
      source.bucket? = target.bucket? → source.key ≠ target.key) :
    ∀ through : Access, through.store = origin.access.store →
      ¬ entryAt destination.access bucket' (joined ns') through bucket (joined ns) := by
  rintro through hstore ⟨rfl, rfl, hkey | hkey⟩
  · apply hapart hstore.symm
    · rw [hs.bucket?_eq, ht.bucket?_eq]
    · rw [hs.key_eq, ht.key_eq, hkey]
  · rcases insidePrefix_terminated ht.isName with hempty | hends
    · exact hne (hs.key_eq_empty_iff.1 (hkey.trans hempty))
    · rw [← hkey, endsInSeparator_joined hs.isName] at hends
      cases hends

/-- A read that succeeds gives the content. -/
theorem read_content {view : σ → Store}
    (hserves : h.Serves (fun through => through.store = origin.access.store) view)
    (hs : f.Locates source origin bucket ns) (hne : ns ≠ []) {d : Bytes}
    (hrun : (f.read source).run.run h s = (.ok d, t)) :
    (view s).content? bucket (joined ns) = some d := by
  rw [hs.read_eq hne, Action.run_ask] at hrun
  obtain ⟨hget, -⟩ := hserves.passed rfl (congrArg Prod.fst hrun)
  exact get_eq_ok_iff.1 hget

/-- A transfer that succeeds leaves what it carries at its target. -/
theorem transfer_stores {view : σ → Store}
    (hserves : h.Serves (fun through => through.store = destination.access.store) view)
    {bucket' : String} {ns' : List String} (ht : f.Locates target destination bucket' ns')
    (carried : Transfer.Source) (hkind : ∀ name, carried ≠ .file name) {acl : Option Acl}
    {options : TransferOptions} {result : Transferred} {d : Bytes}
    (hfrom : carried.content? (view s) .absent = some d)
    (hrun : (carried.transfer destination.access f.schedule target acl options).run.run h s =
      (.ok result, t)) :
    f.Holds (view t) target d := by
  have hne' : ns' ≠ [] := by
    intro hnil
    obtain ⟨fault, heq⟩ := carried.transfer_refused destination.access f.schedule
      (ht.objectAt_refused hnil) acl options
    rw [heq] at hrun
    cases hrun
  have hstored := Transfer.transfer_content hserves rfl hkind (ht.objectAt_eq hne') hfrom
    (congrArg Prod.fst hrun)
  rw [hrun] at hstored
  exact (ht.holds_iff hne').2 hstored

section Copy

variable (hserves : ∀ i, h.Serves (fun through => through.store = i) (view i))
  (hs : f.Locates source origin bucket ns) (hne : ns ≠ []) (htarget : target.Proper)
  (hopen : f.openFileSystem target = .ok destination)
  (hapart : origin.access.store = destination.access.store →
    source.bucket? = target.bucket? → source.key ≠ target.key)
include hserves hs hne htarget hopen hapart

/-- A copy leaves its source alone. -/
theorem copy_keeps (options : CopyMode) :
    (view origin.access.store ((f.copy source target options).run.run h s).2).object? bucket
      (joined ns) = (view origin.access.store s).object? bucket (joined ns) := by
  rcases locates_or_error htarget hopen with ⟨bucket', ns', ht⟩ | hnowhere
  · exact (hserves _).untouched (copy_within (hserves _) source ht options s) _ _
      (not_entryAt_source hs hne ht hapart)
  · have hreads : (f.copy source target options).Always h
        (Call.Within (fun through => through.store = origin.access.store)
          (view origin.access.store) fun _ _ _ => False) := by
      unfold copy
      split
      · exact Action.always_pure _
      · refine (status_reads f source).bind fun found => ?_
        rw [hnowhere]
        exact Action.always_throw _
    exact (hserves _).untouched_of_reads (hreads s) _ _

/-- **A copy that succeeds has stored the content** of the object at its source. -/
theorem copy_stores (hhonest : h.Honest view) (hst : source ≠ target) {options : CopyMode}
    (ho : (view origin.access.store s).object? bucket (joined ns) = some o)
    (hrun : (f.copy source target options).run.run h s = (.ok (), t)) :
    f.Holds (view destination.access.store t) target o.data := by
  rw [copy, if_neg hst] at hrun
  obtain ⟨a, u, hstatus, hrun⟩ := Action.run_bind_eq_ok hrun
  have hfile := status_stored hhonest hs hne ho hstatus
  rcases locates_or_error htarget hopen with ⟨bucket', ns', ht⟩ | hnowhere
  · rw [ht.locate_eq, Action.ofResult_ok_bind] at hrun
    obtain ⟨_, v, hclear, hrun⟩ := Action.run_bind_eq_ok hrun
    -- the object is still there when it is copied
    have hov : (view origin.access.store v).object? bucket (joined ns) = some o := by
      rw [← ho, ← status_untouched (hserves _) hstatus,
        ← (hserves _).untouched (clearTarget_within ht _ _ u) _ _
          (not_entryAt_source hs hne ht hapart), hclear]
    have hcontent : (view origin.access.store v).content? bucket (joined ns) = some o.data := by
      rw [Store.content?, hov, Option.map_some]
    dsimp only at hrun
    rw [hfile, if_neg Bool.false_ne_true] at hrun
    split at hrun
    · rename_i hsame
      obtain rfl : origin = destination :=
        Except.ok.inj (hs.opened.symm.trans (openFileSystem_congr hopen hsame))
      obtain ⟨r, w, hcopy, hrun⟩ := Action.run_bind_eq_ok hrun
      cases hrun
      refine transfer_stores (hserves _) ht (.object source) (fun name heq => by cases heq) ?_ hcopy
      rw [Transfer.Source.content?, hs.objectAt_eq hne]
      exact hcontent
    · obtain ⟨data, w, hread, hrun⟩ := Action.run_bind_eq_ok hrun
      obtain ⟨r, x, hupload, hrun⟩ := Action.run_bind_eq_ok hrun
      cases hrun
      refine transfer_stores (hserves _) ht (.bytes data) (fun name heq => by cases heq) ?_ hupload
      rw [← hcontent, read_content (hserves _) hs hne hread]
      rfl
  · rw [hnowhere] at hrun
    cases hrun

end Copy

/-- Two proper paths of one filesystem do not name one object. -/
theorem key_ne_of_ne (htarget : target.Proper)
    (horigin : f.openFileSystem source = .ok origin)
    (hdestination : f.openFileSystem target = .ok destination) (hst : source ≠ target)
    (hfs : source.fs = target.fs) (hs : f.Locates source origin bucket ns)
    (hbucket : source.bucket? = target.bucket?) : source.key ≠ target.key := by
  intro hkey
  rw [hs.bucket?_eq] at hbucket
  rcases locates_or_error htarget hdestination with ⟨bucket', ns', ht⟩ | hnowhere
  · rw [ht.bucket?_eq] at hbucket
    rw [hs.key_eq, ht.key_eq] at hkey
    obtain rfl := Option.some.inj hbucket
    obtain rfl := joined_inj hs.isName ht.isName hkey
    obtain rfl : origin = destination :=
      Except.ok.inj (horigin.symm.trans (openFileSystem_congr hdestination hfs))
    exact hst (hs.path_eq.trans ht.path_eq.symm)
  · rw [locate, hdestination] at hnowhere
    simp only [bind, Except.bind, ← hbucket] at hnowhere
    cases hnowhere

/-- Deleting the source leaves the target alone. -/
theorem delete_keeps (hhonest : h.Honest view) (hs : f.Locates source origin bucket ns)
    (hne : ns ≠ []) (ho : (view origin.access.store s).object? bucket (joined ns) = some o)
    (hserves : h.Serves (fun through => through.store = destination.access.store)
      (view destination.access.store))
    (htarget : target.Proper) (hopen : f.openFileSystem target = .ok destination)
    (hapart : origin.access.store = destination.access.store →
      source.bucket? = target.bucket? → source.key ≠ target.key) {d : Bytes}
    (hd : f.Holds (view destination.access.store s) target d) :
    f.Holds (view destination.access.store ((f.delete source).run.run h s).2) target d := by
  obtain ⟨bucket', ns', ht, hne'⟩ := hd.locates htarget hopen
  rw [ht.holds_iff hne'] at hd ⊢
  rw [Store.content?, hserves.untouched (delete_along hhonest hs hne ho) bucket' (joined ns')]
  · exact hd
  · rintro through hstore ⟨rfl, rfl, hkey⟩
    apply hapart hstore
    · rw [hs.bucket?_eq, ht.bucket?_eq]
    · rw [hs.key_eq, ht.key_eq, hkey]

/-- **A move never loses the content of a file**, whatever calls fail: a move that succeeds leaves
it at the target, and one that fails leaves it at the source.  Where two filesystems share a store,
the paths must name two objects. -/
theorem move_keeps_content (h : Handler σ) (view : StoreId → σ → Store)
    (hserves : ∀ i, h.Serves (fun through => through.store = i) (view i)) (hhonest : h.Honest view)
    (f : Files) (hsource : source.Proper) (htarget : target.Proper)
    (horigin : f.openFileSystem source = .ok origin)
    (hdestination : f.openFileSystem target = .ok destination) (hst : source ≠ target)
    (hshared : source.fs ≠ target.fs → origin.access.store = destination.access.store →
      source.bucket? = target.bucket? → source.key ≠ target.key)
    (options : CopyMode) (s : σ) (d : Bytes) (hd : f.Holds (view origin.access.store s) source d)
    {result : Result Unit} {t : σ}
    (hrun : (f.move source target options).run.run h s = (result, t)) :
    match result with
    | .ok _ => f.Holds (view destination.access.store t) target d
    | .error _ => f.Holds (view origin.access.store t) source d := by
  obtain ⟨bucket, ns, hs, hne⟩ := hd.locates hsource horigin
  obtain ⟨o, ho, rfl⟩ := Option.map_eq_some_iff.1 ((hs.holds_iff hne).1 hd)
  have hapart : origin.access.store = destination.access.store →
      source.bucket? = target.bucket? → source.key ≠ target.key := by
    by_cases hfs : source.fs = target.fs
    · exact fun _ => key_ne_of_ne htarget horigin hdestination hst hfs hs
    · exact hshared hfs
  -- the source holds its content as long as its object is there
  have hholds : ∀ w, (view origin.access.store w).object? bucket (joined ns) = some o →
      f.Holds (view origin.access.store w) source o.data := by
    intro w hw
    rw [hs.holds_iff hne, Store.content?, hw, Option.map_some]
  rw [move, if_neg hst] at hrun
  cases hstatus : (f.status source).run.run h s with
  | mk r u =>
    have hou : (view origin.access.store u).object? bucket (joined ns) = some o := by
      rw [status_untouched (hserves _) hstatus, ho]
    cases r with
    | error e =>
      rw [Action.run_bind_error hstatus] at hrun
      cases hrun
      exact hholds _ hou
    | ok a =>
      have hfile := status_stored hhonest hs hne ho hstatus
      rw [Action.run_bind_ok hstatus, hfile, if_neg Bool.false_ne_true] at hrun
      have hkept := copy_keeps (s := u) hserves hs hne htarget hdestination hapart options
      cases hcopy : (f.copy source target options).run.run h u with
      | mk r v =>
        rw [hcopy, hou] at hkept
        cases r with
        | error e =>
          rw [Action.run_bind_error hcopy] at hrun
          cases hrun
          exact hholds _ hkept
        | ok _ =>
          rw [Action.run_bind_ok hcopy] at hrun
          cases result with
          | error e =>
            apply hholds
            rw [delete_failed hhonest hs hne hkept (hserves origin.access.store) hrun]
            exact hkept
          | ok _ =>
            have hstored := copy_stores hserves hs hne htarget hdestination hapart hhonest hst hou
              hcopy
            have hleft := delete_keeps hhonest hs hne hkept (hserves _) htarget hdestination hapart
              hstored
            rwa [hrun] at hleft

/-- A file that moves to another filesystem of its store. -/
theorem move_keeps_content_shared :
    let origin : FileSystem := ⟨0, ⟨"one", ""⟩, {}, ⟨0, 0⟩, true⟩
    let destination : FileSystem := ⟨1, ⟨"two", ""⟩, {}, ⟨1, 0⟩, true⟩
    let f : Files := { fileSystems := [origin, destination], rounds := 1 }
    let source : Path := ⟨0, true, ["b", "k"]⟩
    let target : Path := ⟨1, true, ["b", "m"]⟩
    let s : Store := (Store.new 1 .epoch).setBucket "b"
      (KeyMap.empty.insert "k" ⟨[1, 2], "", .epoch, .byDefault⟩)
    let h := Store.several fun _ _ => none
    f.Holds s source [1, 2] ∧
      ∃ t, (f.move source target {}).run.run h (fun _ => s, .absent) = (.ok (), t) ∧
        f.Holds (t.1 0) target [1, 2] := by
  intro origin destination f source target s h
  have hheld : f.Holds s source [1, 2] := by
    unfold Holds
    decide +kernel
  have hserves : ∀ i, h.Serves (fun through => through.store = i) fun s => s.1 i :=
    Store.several_serves _
  have hhonest : h.Honest fun i s => s.1 i := Store.several_honest (by simp)
  have hmoved : ((f.move source target {}).run.run h (fun _ => s, .absent)).1 = .ok () := by
    decide +kernel
  cases hrun : (f.move source target {}).run.run h (fun _ => s, .absent) with
  | mk result t =>
    rw [hrun] at hmoved
    subst hmoved
    exact ⟨hheld, t, rfl, move_keeps_content h (fun i s => s.1 i) hserves hhonest f
      (Path.proper_of_isName (by decide)) (Path.proper_of_isName (by decide)) rfl rfl (by decide)
      (fun _ _ _ => by decide) {} _ [1, 2] hheld hrun⟩

/-- **A move onto the object of the source**, named through another filesystem of its store, loses
it. -/
theorem move_onto_itself :
    let origin : FileSystem := ⟨0, ⟨"one", ""⟩, {}, ⟨0, 0⟩, true⟩
    let destination : FileSystem := ⟨1, ⟨"two", ""⟩, {}, ⟨1, 0⟩, true⟩
    let f : Files := { fileSystems := [origin, destination], rounds := 1 }
    let source : Path := ⟨0, true, ["b", "k"]⟩
    let target : Path := ⟨1, true, ["b", "k"]⟩
    let s : Store := (Store.new 2 .epoch).setBucket "b"
      (KeyMap.empty.insert "k" ⟨[1, 2], "", .epoch, .byDefault⟩)
    let options : CopyMode := { replaceExisting := true }
    let moved := (f.move source target options).run.run Store.handler (s, .absent)
    source ≠ target ∧ f.Holds s source [1, 2] ∧ moved.1 = .ok () ∧
      ¬ f.Holds moved.2.1 target [1, 2] ∧ moved.2.1.object? "b" "k" = none := by
  unfold Holds
  decide +kernel

end Move

end BucketFs
