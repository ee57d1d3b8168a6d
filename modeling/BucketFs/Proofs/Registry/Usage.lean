import BucketFs.Proofs.Files.Closed
import BucketFs.Proofs.Files.Locate
import BucketFs.Proofs.Registry.Course

/-!
# What is done with closed filesystems

* `Registry.Numbered` — filesystems and their accesses carry the numbers of their places, so the
  access of a closed filesystem is that of no open one.
* `Registry.Reachable` — the registries that openings, searches, closings and filesystems that are
  no entries lead to.
* `Registry.Reachable.closed_unused` — a closed filesystem is not used, but by the reading of a
  whole file (`Registry.closed_read`).
-/

namespace BucketFs

namespace Registry

variable {reg : Registry}

/-- Whether filesystems and their accesses carry the numbers of their places. -/
def Numbered (reg : Registry) : Prop :=
  ∀ id fs, reg.fileSystem? id = some fs → fs.id = id ∧ fs.access.owner = id

theorem numbered_new (base : Settings) : (new base).Numbered :=
  fun _ _ hfs => (Option.some_ne_none _ hfs.symm).elim

theorem Numbered.enter (h : reg.Numbered) (key : FsKey) (settings : Settings) (store : StoreId) :
    (reg.enter key settings store).Numbered := by
  intro id fs hfs
  rw [enter_fileSystem?] at hfs
  split at hfs
  · rename_i hid
    cases hfs
    exact ⟨hid.symm, hid.symm⟩
  · exact h id fs hfs

theorem Numbered.close (h : reg.Numbered) (id : FsId) : (reg.close id).Numbered := by
  intro id' fs hfs
  rw [close_fileSystem?] at hfs
  split at hfs
  · rename_i hid
    obtain ⟨fs', hfs', rfl⟩ := Option.map_eq_some_iff.1 hfs
    rw [hid]
    exact h id fs' hfs'
  · exact h id' fs hfs

theorem numbered_kept : Kept fun _ reg => reg.Numbered :=
  ⟨fun _ _ h => h, fun settings store h _ _ => h.enter _ settings store, fun id h => h.close id⟩

/-- The registries that can be reached: from the one that knows no filesystem, by filesystems that
are no entries and by runs, each of them up to some point. -/
inductive Reachable (base : Settings) : Registry → Prop
  | new : Reachable base (.new base)
  | standalone {reg : Registry} (reached : Reachable base reg) (endpoint : String)
      (settings : Settings) (store : StoreId) :
      Reachable base (reg.standalone endpoint settings store).2
  | run {reg reg' : Registry} {run : FactoryRun} {log : List Deed} (reached : Reachable base reg)
      (passes : run.Passes reg log reg') : Reachable base reg'

theorem Reachable.numbered {base : Settings} (h : reg.Reachable base) : reg.Numbered := by
  induction h with
  | new => exact numbered_new base
  | standalone reached endpoint settings store ih =>
    exact ih.enter (.ofSettings endpoint settings) settings store
  | run reached passes ih => exact passes.kept numbered_kept ih

section Numbered

variable {f : Files} {fs : FileSystem} {p : Path} (h : reg.Numbered)
  (hf : f.fileSystems = reg.fileSystems)
include h hf

/-- Operations find a filesystem at the place of its number. -/
theorem Numbered.fileSystem_eq_ok_iff :
    f.fileSystem p = .ok fs ↔ reg.fileSystem? p.fs = some fs := by
  unfold Files.fileSystem
  rw [hf]
  cases hfind : reg.fileSystems.find? fun fs => fs.id == p.fs with
  | none =>
    refine iff_of_false (fun hok => by cases hok) fun hfs => ?_
    have hne := List.find?_eq_none.1 hfind fs (List.mem_of_getElem? hfs)
    exact hne (beq_iff_eq.2 (h _ _ hfs).1)
  | some found =>
    obtain ⟨i, hi⟩ := List.mem_iff_getElem?.1 (List.mem_of_find?_eq_some hfind)
    have hid : found.id = p.fs := by simpa using List.find?_some hfind
    have hplace : reg.fileSystem? p.fs = some found := by
      rw [← hid, (h i found hi).1]
      exact hi
    rw [hplace, Except.ok.injEq, Option.some.injEq]

/-- Operations refuse a path of a closed filesystem where they look its filesystem up. -/
theorem Numbered.openFileSystem_closed (hfs : reg.fileSystem? p.fs = some fs)
    (hclosed : fs.isOpen = false) : f.openFileSystem p = .error (.closedFileSystem fs.uri) := by
  rw [Files.openFileSystem, (h.fileSystem_eq_ok_iff hf).2 hfs]
  simp [bind, Except.bind, FileSystem.checkOpen, hclosed]

/-- The access of a closed filesystem is that of no open one. -/
theorem Numbered.not_reaches {id : FsId} (hfs : reg.fileSystem? id = some fs)
    (hclosed : fs.isOpen = false) : ¬ f.Reaches fs.access := by
  rintro ⟨q, fs', hopen, haccess⟩
  have hfs' := (h.fileSystem_eq_ok_iff hf).1 (Files.fileSystem_of_open hopen)
  have howner := (h id fs hfs).2
  have howner' := (h q.fs fs' hfs').2
  have hid : q.fs = id := by rw [← howner', haccess, howner]
  have hopened := (Files.openFileSystem_spec hopen).2
  rw [hid, hfs] at hfs'
  cases hfs'
  rw [hopened] at hclosed
  cases hclosed

end Numbered

/-- **A closed filesystem is not used.**  Given a path of it, every operation but the reading of a
whole file makes no call through its access, whatever the stores answer, and fails unless it copies
or moves a path onto itself. -/
theorem Reachable.closed_unused {σ : Type} {base : Settings} (h : reg.Reachable base) {f : Files}
    (hf : f.fileSystems = reg.fileSystems) {op : FileOperation} (hread : ∀ p, op ≠ .read p)
    {p : Path} (hp : p ∈ op.paths) {fs : FileSystem} (hfs : reg.fileSystem? p.fs = some fs)
    (hclosed : fs.isOpen = false) (handler : Handler σ) (s : σ) :
    (∀ through c reply,
      (⟨.store through c, reply⟩ : Event) ∈ (f.perform op).run.events handler s →
        through ≠ fs.access) ∧
    (¬ op.OntoItself → ∃ e, ((f.perform op).run.run handler s).1 = .error e) := by
  have hnumbered := h.numbered
  constructor
  · rintro through c reply hmade rfl
    obtain ⟨_, hreaches⟩ := (Files.perform_open f hread s).events _ hmade
    exact hnumbered.not_reaches hf hfs hclosed hreaches
  · intro honto
    exact Files.perform_shut (hnumbered.openFileSystem_closed hf hfs hclosed) rfl hread hp honto s

/-- Two filesystems over one store, the first of which is closed. -/
def closing : FactoryRun :=
  .openFileSystem "s3://one/" [] (Factory.constant 0) fun _ =>
    .openFileSystem "s3://two/" [] (Factory.constant 0) fun _ => .close 0 (.result (.ok 0))

/-- A copy from the open filesystem to the closed one. -/
theorem Reachable.closed_unused_copy :
    let reg := (closing.run (.new {})).2
    let s := (Store.new 1000 .epoch).setBucket "b"
      (KeyMap.empty.insert "k" ⟨[1], "", .epoch, .byDefault⟩)
    let copying := (reg.files 0).perform (.copy ⟨1, true, ["b", "k"]⟩ ⟨0, true, ["b", "l"]⟩ {})
    (∀ through c reply, (⟨.store through c, reply⟩ : Event) ∈
        copying.run.events Store.handler (s, .absent) → through ≠ ⟨0, 0⟩) ∧
      ∃ e, (copying.run.run Store.handler (s, .absent)).1 = .error e := by
  intro reg s copying
  have hreached : reg.Reachable {} := .run .new (closing.passes_end _)
  have hclosed : reg.fileSystem? 0 = some ⟨0, ⟨"one", ""⟩, {}, ⟨0, 0⟩, false⟩ := by decide +kernel
  have hread : ∀ p, FileOperation.copy ⟨1, true, ["b", "k"]⟩ ⟨0, true, ["b", "l"]⟩ {} ≠ .read p :=
    nofun
  have htarget : (⟨0, true, ["b", "l"]⟩ : Path) ∈
      (FileOperation.copy ⟨1, true, ["b", "k"]⟩ ⟨0, true, ["b", "l"]⟩ {}).paths := by decide
  obtain ⟨hcalls, hfails⟩ := Reachable.closed_unused hreached (f := reg.files 0) rfl hread htarget
    hclosed rfl Store.handler (s, .absent)
  exact ⟨hcalls, hfails (by simp [FileOperation.OntoItself])⟩

/-- **The reading of a whole file** does use a closed filesystem: it calls through its access and
succeeds. -/
theorem closed_read :
    let reg := (closing.run (.new {})).2
    let s := (Store.new 1000 .epoch).setBucket "b"
      (KeyMap.empty.insert "k" ⟨[1], "", .epoch, .byDefault⟩)
    let reading := (reg.files 0).perform (.read ⟨0, true, ["b", "k"]⟩)
    reg.Reachable {} ∧
      reg.fileSystem? 0 = some ⟨0, ⟨"one", ""⟩, {}, ⟨0, 0⟩, false⟩ ∧
      reading.run.events Store.handler (s, .absent) =
        [⟨.store ⟨0, 0⟩ (.get "b" "k" none), Except.ok [1]⟩] ∧
      (reading.run.run Store.handler (s, .absent)).1 = .ok [1] := by
  refine ⟨.run .new (closing.passes_end _), by decide +kernel, rfl, by decide +kernel⟩

end Registry

end BucketFs
