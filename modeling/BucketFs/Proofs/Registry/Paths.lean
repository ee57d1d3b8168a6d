import BucketFs.Proofs.Location.Uri
import BucketFs.Proofs.Registry.Course

/-!
# Paths and their URIs

* `Registry.Hosted` — no filesystem has a separator in its host; every registry of a run is so.
* `Registry.Sound.find_chosen` — which filesystem of a host a search finds.
* `FactoryRun.Passes.openPath_uri` — the URI of a path leads back to the path.
-/

namespace BucketFs

open BucketFs.Text

namespace Registry

/-! ## Hosts -/

/-- A registry whose filesystems have hosts that a URI can have. -/
def Hosted (reg : Registry) : Prop :=
  ∀ id fs, reg.fileSystem? id = some fs → separator ∉ fs.key.host.toList

theorem hosted_new (base : Settings) : (new base).Hosted := fun _ _ h =>
  (Option.some_ne_none _ h.symm).elim

/-- **Nothing that happens to a registry** brings a filesystem of another host. -/
theorem hosted_kept : Kept fun _ reg => reg.Hosted := by
  constructor
  case asking => exact fun _ _ h => h
  case enter =>
    rintro log reg key settings store h hfree ⟨uri, path, hparse⟩ id fs hfs
    rw [enter_fileSystem?] at hfs
    split at hfs
    · cases hfs
      exact Uri.host_of_parse hparse
    · exact h id fs hfs
  case close =>
    intro log reg id h id' fs hfs
    rw [close_fileSystem?] at hfs
    split at hfs
    · obtain ⟨fs', hfs', rfl⟩ := Option.map_eq_some_iff.1 hfs
      exact h id fs' hfs'
    · exact h id' fs hfs

/-! ## The filesystem of a host -/

/-- Whether a search for the host of a filesystem has to find just that one: no other one of the
host is open, or it has the base identity. -/
def Chosen (reg : Registry) (id : FsId) (fs : FileSystem) : Prop :=
  (∀ id' fs', reg.fileSystem? id' = some fs' → fs'.isOpen = true →
      fs'.key.host = fs.key.host → id' = id) ∨
    fs.key.accessKey = reg.base.identity

/-- **A search finds the filesystem that is chosen.** -/
theorem Sound.find_chosen {reg : Registry} (h : reg.Sound) {uri : String} {u : Uri}
    (hparse : Uri.parse uri = .ok u) {id : FsId} {fs : FileSystem}
    (hfs : reg.fileSystem? id = some fs) (hopen : fs.isOpen = true) (hhost : fs.key.host = u.host)
    (hchosen : reg.Chosen id fs) : reg.find uri = .ok id := by
  have hentry := h.open_entered id fs hfs hopen
  rcases hchosen with honly | hbase
  · -- whatever is found is open and of this host
    cases hfind : reg.find uri with
    | ok found =>
      obtain ⟨u', fs', hparse', hfs', hopen', hhost'⟩ := h.find_found hfind
      rw [hparse] at hparse'
      cases hparse'
      rw [honly found fs' hfs' hopen' (hhost'.trans hhost.symm)]
    | error e =>
      obtain ⟨-, hinvalid⟩ | ⟨rfl, -⟩ := find_error hfind
      · exact absurd hparse (hinvalid u)
      · obtain ⟨-, u', hparse', hnone⟩ := h.find_missing_iff.1 hfind
        rw [hparse] at hparse'
        cases hparse'
        exact absurd ⟨fs.key, ⟨id, fs, hfs, hopen, rfl⟩, hhost⟩ hnone
  · have hkey : fs.key = .ofSettings u.host reg.base := by
      cases hk : fs.key with
      | mk host accessKey =>
        rw [hk] at hhost hbase
        rw [FsKey.ofSettings, ← hhost, ← hbase]
    rw [hkey, ← h.get?_eq_some_iff] at hentry
    simp only [find, hparse, bind, Except.bind, hentry]

theorem openPath_found {reg : Registry} (factory : Factory) {uri : String} {u : Uri} {id : FsId}
    (hparse : Uri.parse uri = .ok u) (hfind : reg.find uri = .ok id) :
    reg.openPath factory uri = (.ok (.parse id u.path []), reg) := by
  simp only [openPath, pathWith, hparse, hfind]

end Registry

open Registry

/-- **Paths survive the trip through their URI.**  At every point of a run of a registry, the URI of
an absolute path leads back to the path, on the same filesystem, and opens nothing, if the search
for the host has to find that filesystem; and every URI names one path, by its text and by its
bucket and key. -/
theorem FactoryRun.Passes.openPath_uri {run : FactoryRun} {base : Settings} {log : List Deed}
    {reg : Registry} (h : run.Passes (.new base) log reg) (factory : Factory) {p : Path}
    {fs : FileSystem} (hp : p.Named) (habsolute : p.absolute = true)
    (hfs : reg.fileSystem? p.fs = some fs) (hopen : fs.isOpen = true)
    (hchosen : reg.Chosen p.fs fs) :
    reg.openPath factory (p.uri fs.uri) = (.ok p, reg) ∧
      ∀ text u bucket id, Uri.parse text = .ok u → u.bucket? = some bucket →
        Path.parse id u.path [] = Path.ofBucketKey id bucket u.key := by
  refine ⟨?_, fun text u bucket id hparse hbucket => Uri.parse_path_eq hparse hbucket id⟩
  have hhosted : reg.Hosted := h.kept hosted_kept (hosted_new base)
  obtain ⟨u, hparse, hhost, hpath⟩ : ∃ u, Uri.parse (p.uri fs.uri) = .ok u ∧
      u.host = fs.key.host ∧ Path.parse p.fs u.path [] = p :=
    Path.parse_uri hp habsolute (hhosted p.fs fs hfs)
  have hfind := h.keeps.sound.find_chosen hparse hfs hopen hhost.symm hchosen
  rw [openPath_found factory hparse hfind, hpath]

/-- Two filesystems of one host, the second one under the base identity. -/
def FactoryRun.sharedHost : FactoryRun :=
  .openFileSystem "s3://h/" [("access_key", "guest")] (Factory.constant 0) fun _ =>
    .openFileSystem "s3://h/" [] (Factory.constant 1) fun _ => .result (.ok 1)

/-- A path with names that a URI cannot write as they are. -/
theorem FactoryRun.openPath_uri_escaped :
    let reg := (sharedHost.run (.new {})).2
    let fs : FileSystem := ⟨1, ⟨"h", ""⟩, {}, ⟨1, 1⟩, true⟩
    let p : Path := ⟨1, true, ["b", "100%41", "a?b#c", " ü\n", ".."]⟩
    sharedHost.Passes (.new {}) ((sharedHost.course (.new {})).map (·.1)) reg ∧ p.Named ∧
      p.absolute = true ∧ reg.fileSystem? p.fs = some fs ∧ fs.isOpen = true ∧ reg.Chosen p.fs fs ∧
      reg.openPath (Factory.constant 2) (p.uri fs.uri) = (.ok p, reg) := by
  intro reg fs p
  have hpasses := sharedHost.passes_end (.new {})
  have hp : p.Named := by decide
  have hfs : reg.fileSystem? p.fs = some fs := by decide +kernel
  have hchosen : reg.Chosen p.fs fs := .inr (by decide +kernel)
  exact ⟨hpasses, hp, rfl, hfs, rfl, hchosen,
    (FactoryRun.Passes.openPath_uri hpasses (Factory.constant 2) hp rfl hfs rfl hchosen).1⟩

end BucketFs
