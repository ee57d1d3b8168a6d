import BucketFs.Files.Copy
import BucketFs.Proofs.Call.Along
import BucketFs.Proofs.Directory.Reading

/-!
# Operations that only ask

* `StoreCall.Asks` — the calls that change nothing in a store.
* `Access.MayAsk` — whether all of them are allowed through an access.
* `Files.status_asks`, `Files.exists_asks`, `Files.read_asks`, `Files.ensureEmpty_asks` — asking
  about the entry at a path makes no other calls, and makes them through the access of its
  filesystem; so does the listing of a directory (`Files.children_access`, `collect_asks`).
* `Files.makeDirectory_always`, `Files.delete_always`, `Files.deleteAny_always`,
  `Files.clearTarget_always`, `Files.copyPending_always` — what these operations call besides
  asking.
-/

namespace BucketFs

open BucketFs.Text

/-- The calls that change nothing in a store. -/
def StoreCall.Asks : StoreCall → Prop
  | .head _ _ | .list _ | .get _ _ _ | .buckets => True
  | _ => False

variable {σ : Type} {h : Handler σ} {allowed : Call → σ → Prop} {through : Access}

/-- Whether all calls that change nothing are allowed through an access. -/
def Access.MayAsk (through : Access) (allowed : Call → σ → Prop) : Prop :=
  ∀ c s, c.Asks → allowed (.store through c) s

theorem ask_asks (hask : through.MayAsk allowed) {c : StoreCall} (hc : c.Asks) :
    (Action.ask through c).Always h allowed :=
  Action.always_ask fun s => hask c s hc

theorem probe_asks (hask : through.MayAsk allowed) (bucket key : String) :
    (FileStatus.probe through bucket key).Always h allowed := by
  unfold FileStatus.probe
  refine (Action.Always.outcome (ask_asks hask (by trivial))).bind fun r => ?_
  split
  · exact Action.always_pure _
  · split
    · exact Action.always_pure _
    · exact Action.always_throw _

/-- Resolving a key only asks. -/
theorem resolve_asks (hask : through.MayAsk allowed) (bucket key : String) :
    (FileStatus.resolve through bucket key).Always h allowed := by
  unfold FileStatus.resolve
  dsimp only
  split
  · exact (ask_asks hask (by trivial)).bind fun _ => Action.always_pure _
  · split
    -- the object is asked for only where the key may be one; what follows is the same
    all_goals
      refine Action.Always.bind
        (by first | exact Action.always_pure _ | exact probe_asks hask _ _) fun object => ?_
      split
      · exact Action.always_pure _
      · refine (probe_asks hask _ _).bind fun marker => ?_
        split
        · exact Action.always_pure _
        · refine (ask_asks hask (by trivial)).bind fun page => ?_
          split
          · exact Action.always_throw _
          · exact Action.always_pure _

theorem drain_asks (rounds : Nat) : ∀ (stream : ChildStream) (s : σ),
    stream.access.MayAsk allowed → (stream.drain rounds).Along h allowed s := by
  induction rounds with
  | zero =>
    intro stream s _
    rw [ChildStream.drain]
    split <;> trivial
  | succ rounds ih =>
    intro stream s hask
    rw [ChildStream.drain]
    split
    · trivial
    · refine ⟨hask _ s trivial, ?_⟩
      dsimp only
      split
      · trivial
      · rename_i next hreceive
        have haccess := (ChildStream.receive_sameListing { stream with buffer := [] }
          (h (.store stream.access (.list stream.request)) s).1).access
        rw [hreceive] at haccess
        rw [Program.along_bind]
        exact ⟨ih next _ (by rwa [haccess]), trivial⟩

/-- Listing a directory only asks. -/
theorem collect_asks (rounds : Nat) {stream : ChildStream} (hask : stream.access.MayAsk allowed) :
    (stream.collect rounds).Always h allowed := by
  intro s
  rw [ChildStream.collect, ExceptT.run_mk, Program.along_bind]
  refine ⟨drain_asks rounds stream s hask, ?_⟩
  split <;> trivial

namespace Files

variable {f : Files} {p : Path}

theorem openFileSystem_of_locate {place : FileSystem × String × String}
    (hlocate : f.locate p = .ok place) : f.openFileSystem p = .ok place.1 := by
  unfold locate at hlocate
  cases hopen : f.openFileSystem p with
  | error e =>
    rw [hopen] at hlocate
    cases hlocate
  | ok fs =>
    rw [hopen] at hlocate
    simp only [bind, Except.bind] at hlocate
    split at hlocate
    · cases hlocate
      rfl
    · cases hlocate

theorem fileSystem_of_open {fs : FileSystem} (hopen : f.openFileSystem p = .ok fs) :
    f.fileSystem p = .ok fs := by
  unfold openFileSystem at hopen
  cases hfs : f.fileSystem p with
  | error e =>
    rw [hfs] at hopen
    cases hopen
  | ok fs' =>
    rw [hfs] at hopen
    simp only [bind, Except.bind] at hopen
    split at hopen
    · cases hopen
    · cases hopen
      rfl

/-- The stream over a directory has the access of its filesystem. -/
theorem children_access {stream : ChildStream} (hstream : f.children p = .ok stream) :
    ∃ fs, f.openFileSystem p = .ok fs ∧ stream.access = fs.access := by
  unfold children at hstream
  cases hlocate : f.locate p with
  | error e =>
    rw [hlocate] at hstream
    cases hstream
  | ok place =>
    obtain ⟨fs, bucket, key⟩ := place
    rw [hlocate] at hstream
    refine ⟨fs, openFileSystem_of_locate hlocate, ?_⟩
    exact (ChildStream.new_untouched hstream).2.1

section Asks

variable (hask : ∀ fs, f.openFileSystem p = .ok fs → fs.access.MayAsk allowed)
include hask

/-- An action that asks nothing before it knows the place of its path. -/
theorem located_always {α : Type} {a : FileSystem × String × String → Action α}
    (ha : ∀ place, place.1.access.MayAsk allowed → f.openFileSystem p = .ok place.1 →
      (a place).Always h allowed) :
    (Action.ofResult (f.locate p) >>= a).Always h allowed := by
  cases hlocate : f.locate p with
  | error e => exact Action.always_throw e
  | ok place =>
    have hopen := openFileSystem_of_locate hlocate
    exact ha place (hask _ hopen) hopen

theorem status_asks : (f.status p).Always h allowed :=
  located_always hask fun _ hplace _ => resolve_asks hplace _ _

theorem exists_asks : (f.exists? p).Always h allowed := by
  unfold exists?
  refine (status_asks hask).outcome.bind fun r => ?_
  split
  · exact Action.always_pure _
  · split
    · exact Action.always_pure _
    · exact Action.always_throw _

theorem ensureEmpty_asks : (f.ensureEmpty p).Always h allowed := by
  unfold ensureEmpty
  refine located_always hask fun place hplace _ => ?_
  dsimp only
  refine (ask_asks hplace (by trivial)).bind fun page => ?_
  split
  · exact Action.always_throw _
  · exact Action.always_pure _

/-- Making a directory asks, and then writes the marker of a place that is no bucket. -/
theorem makeDirectory_always
    (hmarker : ∀ place : FileSystem × String × String, f.locate p = .ok place → place.2.2 ≠ "" →
      (Action.ask place.1.access
        (.put place.2.1 (insidePrefix place.2.2) [] none)).Always h allowed) :
    (f.makeDirectory p).Always h allowed := by
  unfold makeDirectory
  cases hlocate : f.locate p with
  | error e => exact Action.always_throw e
  | ok place =>
    rw [Action.ofResult_ok_bind]
    refine (exists_asks hask).bind fun found => ?_
    simp only [Action.throw_bind]
    split
    · exact Action.always_throw _
    · split
      · exact Action.always_throw _
      · rename_i hkey
        exact (hmarker place hlocate hkey).bind fun _ => Action.always_pure _

variable (hunlink : ∀ isDirectory, (f.unlink p isDirectory).Always h allowed)
include hunlink

/-- Deleting asks, and then unlinks the entry. -/
theorem delete_always : (f.delete p).Always h allowed := by
  unfold delete
  refine (Action.always_ofResult _).bind fun place => ?_
  simp only [Action.throw_bind]
  split
  · exact Action.always_throw _
  · refine (status_asks hask).bind fun found => ?_
    split
    · exact (ensureEmpty_asks hask).bind fun _ => hunlink _
    · exact hunlink _

theorem deleteAny_always : (f.deleteAny p).Always h allowed := by
  unfold deleteAny
  refine (delete_always hask hunlink).outcome.bind fun r => ?_
  split
  · exact Action.always_pure _
  · split
    · exact Action.always_pure _
    · exact Action.always_throw _

/-- Making way for an entry asks, and unlinks an entry of the other kind. -/
theorem clearTarget_always (replace isDirectory : Bool) :
    (f.clearTarget p replace isDirectory).Always h allowed := by
  have hclear : ∀ found : FileStatus,
      (if found.isDirectory ≠ isDirectory then f.unlink p found.isDirectory
        else pure ()).Always h allowed := by
    intro found
    split
    · exact hunlink _
    · exact Action.always_pure _
  unfold clearTarget
  refine (status_asks hask).outcome.bind fun r => ?_
  simp only [Action.throw_bind]
  split
  · split
    · exact Action.always_pure _
    · exact Action.always_throw _
  · split
    · exact Action.always_throw _
    · split
      · exact (ensureEmpty_asks hask).bind fun _ => hclear _
      · exact hclear _

end Asks

/-- Reading a file asks through its filesystem, open or not. -/
theorem read_asks (hask : ∀ fs, f.fileSystem p = .ok fs → fs.access.MayAsk allowed) :
    (f.read p).Always h allowed := by
  unfold read
  refine (Action.always_ofResult _).bind fun object => ?_
  cases hfs : f.fileSystem p with
  | error e => exact Action.always_throw e
  | ok fs => exact ask_asks (hask fs hfs) trivial

section Walk

variable {Q : Path → Path → Prop} {options : CopyMode}
  (hask : ∀ {p fs}, f.openFileSystem p = .ok fs → fs.access.MayAsk allowed)
  (hmake : ∀ source target, Q source target → (f.makeDirectory target).Always h allowed)
  (hcopy : ∀ source target s found t, Q source target →
    (f.status source).run.run h s = (.ok found, t) → found.isDirectory = false →
    (f.copy source target options).run.Along h allowed t)
  (hinside : ∀ source target stream s inside t, Q source target →
    f.children source = .ok stream → (stream.collect f.rounds).run.run h s = (.ok inside, t) →
    ∀ child ∈ inside, ∀ name, child.lastName? = some name → Q child (target.resolve name))
include hask hmake hcopy hinside

/-- **The rounds of a tree copy** ask, make directories and copy files, where `Q` holds of all pairs
of the work list: what a directory adds to it keeps `Q`. -/
theorem copyPending_always (rounds : Nat) : ∀ (pending : List (Path × Path)) (files : Nat),
    (∀ entry ∈ pending, Q entry.1 entry.2) →
    (f.copyPending options rounds pending files).Always h allowed := by
  induction rounds with
  | zero =>
    intro pending files _
    cases pending with
    | nil => exact Action.always_pure _
    | cons entry rest => exact Action.always_throw _
  | succ rounds ih =>
    intro pending files hpending
    cases pending with
    | nil => exact Action.always_pure _
    | cons entry rest =>
      obtain ⟨source, target⟩ := entry
      obtain ⟨hentry, hrest⟩ := List.forall_mem_cons.1 hpending
      have hwalk : (Action.ofResult (f.children source) >>= fun stream => do
          let inside ← stream.collect f.rounds
          let work := inside.filterMap fun child =>
            child.lastName?.map fun name => (child, target.resolve name)
          f.copyPending options rounds (work.reverse ++ rest) files).Always h allowed := by
        cases hchildren : f.children source with
        | error e => exact Action.always_throw e
        | ok stream =>
          obtain ⟨fs, hopen, haccess⟩ := children_access hchildren
          have hlist := collect_asks (h := h) f.rounds (haccess ▸ hask hopen)
          rw [Action.ofResult_ok_bind]
          intro s
          refine Action.along_bind (hlist s) fun inside t hcollect =>
            ih _ _ (fun pair hpair => ?_) t
          rcases List.mem_append.1 hpair with hpair | hpair
          · obtain ⟨child, hchild, heq⟩ := List.mem_filterMap.1 (List.mem_reverse.1 hpair)
            obtain ⟨name, hname, rfl⟩ := Option.map_eq_some_iff.1 heq
            exact hinside _ _ _ _ _ _ hentry hchildren hcollect child hchild name hname
          · exact hrest pair hpair
      intro s
      rw [copyPending]
      refine Action.along_bind (status_asks (fun _ => hask) s) fun found t hstatus => ?_
      split
      · rename_i hfile
        exact Action.along_bind (hcopy _ _ _ _ _ hentry hstatus (by simpa using hfile))
          fun _ u _ => ih rest _ hrest u
      · refine (((exists_asks fun _ => hask).bind fun there => ?_) : Action.Always h _ _) t
        dsimp only
        split
        · exact (hmake source target hentry).bind fun _ => hwalk
        · exact hwalk

end Walk

end Files

end BucketFs
