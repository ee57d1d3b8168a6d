import BucketFs.Files.Basic
import BucketFs.Proofs.Directory.Children
import BucketFs.Proofs.Directory.Status
import BucketFs.Proofs.Location.Path

/-!
# Where a path leads

* `Files.Locates` — a path of an open filesystem, with its bucket and the names of its key.
* `insidePrefix` — the keys inside a directory; `isChild_iff` — the children of a directory are the
  names behind which a file or a directory is.
* `Files.status_run`, `Files.exists_run` — over a store in memory, what is at a path.
* `Files.collect_cases` — the children of a directory as paths.
-/

namespace BucketFs

open BucketFs.Text BucketFs.Listing

namespace Files

/-! ## The prefix of a directory -/

section Inside

variable {ns : List String}

theorem insidePrefix_joined (h : ∀ n ∈ ns, IsName n) (hne : ns ≠ []) :
    insidePrefix (joined ns) = joined ns ++ slash := by
  have hjoined : joined ns ≠ "" := fun h0 => hne ((joined_eq_empty_iff h).1 h0)
  rw [insidePrefix, if_neg hjoined, trimEnd_joined h]

@[simp] theorem insidePrefix_empty : insidePrefix "" = "" := if_pos rfl

/-- A name behind the prefix of a directory is the last of the names. -/
theorem insidePrefix_append (h : ∀ n ∈ ns, IsName n) (n : String) :
    insidePrefix (joined ns) ++ n = joined (ns ++ [n]) := by
  by_cases hne : ns = []
  · rw [hne, joined_nil, insidePrefix_empty, List.nil_append, joined_singleton, String.empty_append]
  · rw [insidePrefix_joined h hne, joined_concat hne]

/-- The names of what lies inside a directory start with those of the directory. -/
theorem prefix_of_inside (h : ∀ n ∈ ns, IsName n) {k : String}
    (hk : hasPrefix (insidePrefix (joined ns)) k = true) : ns <+: names k := by
  by_cases hne : ns = []
  · rw [hne]
    exact List.nil_prefix
  · rw [insidePrefix_joined h hne] at hk
    exact prefix_of_hasPrefix h hk

theorem insidePrefix_terminated (h : ∀ n ∈ ns, IsName n) :
    insidePrefix (joined ns) = "" ∨ endsInSeparator (insidePrefix (joined ns)) = true := by
  by_cases hne : ns = []
  · rw [hne, joined_nil, insidePrefix_empty]
    exact .inl rfl
  · rw [insidePrefix_joined h hne]
    exact .inr (endsInSeparator_append_slash _)

theorem names_insidePrefix (h : ∀ n ∈ ns, IsName n) : names (insidePrefix (joined ns)) = ns := by
  by_cases hne : ns = []
  · rw [hne, joined_nil, insidePrefix_empty]
    rfl
  · rw [insidePrefix_joined h hne, names_append_slash, names_joined h]

theorem insidePrefix_ne_slash (h : ∀ n ∈ ns, IsName n) : insidePrefix (joined ns) ≠ slash := by
  by_cases hne : ns = []
  · rw [hne, joined_nil, insidePrefix_empty]
    decide
  · rw [insidePrefix_joined h hne]
    intro heq
    apply hne
    rw [← joined_eq_empty_iff h]
    apply String.toList_injective
    have hlist := congrArg String.toList heq
    rw [String.toList_append] at hlist
    exact List.append_left_eq_self.1 hlist

/-- Where a file or a directory is, some key has its names before all others. -/
theorem exists_key_of_present {b : Bucket} (h : ∀ n ∈ ns, IsName n) (hne : ns ≠ [])
    (hpresent : HasFile b ns ∨ HasDirectory b ns) : ∃ k ∈ b.keys, ns <+: names k := by
  rcases hpresent with hfile | hnil | ⟨k, hk, hpre⟩
  · refine ⟨_, hfile.stored, [], ?_⟩
    rw [List.append_nil, names_joined h]
  · exact absurd hnil hne
  · exact ⟨k, hk, prefix_of_hasPrefix h hpre⟩

/-- **The children of a directory** are the names behind which something is. -/
theorem isChild_iff {b : Bucket} (h : ∀ n ∈ ns, IsName n) {n : String} :
    IsChild b (insidePrefix (joined ns)) n ↔
      IsName n ∧ (HasFile b (ns ++ [n]) ∨ HasDirectory b (ns ++ [n])) := by
  have hfile : HasFile b (ns ++ [n]) ↔ joined (ns ++ [n]) ∈ b.keys :=
    ⟨fun h => h.stored, fun h => ⟨by simp, h⟩⟩
  have hdirectory : HasDirectory b (ns ++ [n]) ↔
      ∃ k ∈ b.keys, hasPrefix (joined (ns ++ [n]) ++ slash) k = true := by
    simp [HasDirectory]
  rw [hfile, hdirectory, ← insidePrefix_append h]
  constructor
  · rintro ⟨hne, hsingle, hpresent⟩
    exact ⟨⟨hne, hsingle⟩, hpresent⟩
  · rintro ⟨⟨hne, hsingle⟩, hpresent⟩
    exact ⟨hne, hsingle, hpresent⟩

end Inside

/-! ## Paths -/

/-- A path of an open filesystem that leads into a bucket: to the key that the names make. -/
structure Locates (f : Files) (p : Path) (fs : FileSystem) (bucket : String) (ns : List String) :
    Prop where
  opened : f.openFileSystem p = .ok fs
  path_eq : p = ⟨fs.id, true, bucket :: ns⟩
  bucket_ne : bucket ≠ ""
  isName : ∀ n ∈ ns, IsName n

section Paths

variable {f : Files} {p : Path} {fs : FileSystem} {bucket : String} {ns : List String}

theorem openFileSystem_spec (h : f.openFileSystem p = .ok fs) :
    fs.id = p.fs ∧ fs.isOpen = true := by
  unfold openFileSystem fileSystem at h
  split at h
  · rename_i found hfind
    have hid := List.find?_some hfind
    simp only [bind, Except.bind, FileSystem.checkOpen] at h
    split at h
    · cases h
    · rename_i hopen
      cases h
      refine ⟨by simpa using hid, ?_⟩
      split at hopen
      · assumption
      · cases hopen
  · cases h

theorem openFileSystem_congr (h : f.openFileSystem p = .ok fs) {q : Path} (hq : q.fs = p.fs) :
    f.openFileSystem q = .ok fs := by
  unfold openFileSystem fileSystem at h ⊢
  rw [hq]
  split at h
  · exact h
  · cases h

theorem Locates.of_proper (hp : p.Proper) (hopen : f.openFileSystem p = .ok fs)
    (hbucket : p.bucket? = some bucket) : f.Locates p fs bucket p.keyNames := by
  have habs := Path.absolute_of_bucket hbucket
  obtain ⟨id, absolute, segments⟩ := p
  obtain rfl : absolute = true := habs
  obtain ⟨rfl, -⟩ := openFileSystem_spec hopen
  cases segments with
  | nil => cases hbucket
  | cons n rest =>
    obtain rfl : n = bucket := Option.some.inj hbucket
    exact ⟨hopen, rfl, fun h => hp.bucket (by rw [hbucket, h]), hp.isName⟩

/-- A proper path of an open filesystem leads into a bucket or nowhere. -/
theorem locates_or_error (hp : p.Proper) (hopen : f.openFileSystem p = .ok fs) :
    (∃ bucket ns, f.Locates p fs bucket ns) ∨
      f.locate p = .error (.invalidArgument (.outsideBuckets p.render)) := by
  cases hbucket : p.bucket? with
  | some bucket =>
    exact .inl ⟨bucket, _, Locates.of_proper hp hopen hbucket⟩
  | none =>
    refine .inr ?_
    rw [locate, hopen]
    simp only [bind, Except.bind, hbucket]

variable (h : f.Locates p fs bucket ns)
include h

theorem Locates.isOpen : fs.isOpen = true := (openFileSystem_spec h.opened).2

theorem Locates.key_eq : p.key = joined ns := by
  rw [h.path_eq]
  rfl

theorem Locates.bucket?_eq : p.bucket? = some bucket := by
  rw [h.path_eq]
  rfl

theorem Locates.locate_eq : f.locate p = .ok (fs, bucket, joined ns) := by
  rw [locate, h.opened]
  simp only [bind, Except.bind, h.bucket?_eq, h.key_eq]

theorem Locates.key_eq_empty_iff : joined ns = "" ↔ ns = [] := joined_eq_empty_iff h.isName

theorem Locates.objectAt_eq (hne : ns ≠ []) : Transfer.objectAt p = .ok (bucket, joined ns) := by
  rw [Transfer.objectAt, h.bucket?_eq]
  dsimp only
  rw [h.key_eq, if_neg fun h0 => hne (h.key_eq_empty_iff.1 h0)]

/-- A bucket is no object. -/
theorem Locates.objectAt_refused (hnil : ns = []) :
    Transfer.objectAt p = .error (.invalidArgument (.noObject p.render)) := by
  rw [Transfer.objectAt, h.bucket?_eq]
  dsimp only
  rw [h.key_eq, if_pos (h.key_eq_empty_iff.2 hnil)]

/-- The path of more names behind the given ones. -/
theorem Locates.extend {ms : List String} (hms : ∀ n ∈ ms, IsName n) :
    f.Locates ⟨fs.id, true, bucket :: (ns ++ ms)⟩ fs bucket (ns ++ ms) := by
  refine ⟨openFileSystem_congr h.opened ?_, rfl, h.bucket_ne, fun n hn => ?_⟩
  · rw [h.path_eq]
  · exact (List.mem_append.1 hn).elim (h.isName n) (hms n)

/-! ## What is there -/

section Memory

variable {s : Store} {b : Bucket} (file : LocalFile)

theorem Locates.status_run (hb : s.bucket? bucket = some b) :
    ∃ r, (f.status p).run.run Store.handler (s, file) = (r, (s, file)) ∧ StatusOf b ns r := by
  rw [status, h.locate_eq, Action.ofResult_ok_bind]
  exact FileStatus.resolve_run fs.access file hb h.isName

/-- **Something is at a path** if a file or a directory is there. -/
theorem Locates.exists_run (hb : s.bucket? bucket = some b) :
    ∃ found, (f.exists? p).run.run Store.handler (s, file) = (.ok found, (s, file)) ∧
      (found = true ↔ HasFile b ns ∨ HasDirectory b ns) := by
  obtain ⟨r, hrun, hstatus⟩ := h.status_run file hb
  have houtcome : (Action.outcome (f.status p)).run.run Store.handler (s, file) =
      (.ok r, (s, file)) := by
    rw [Action.run_outcome, hrun]
  rw [exists?, Action.run_bind_ok houtcome]
  cases hstatus with
  | file stored isFile => exact ⟨true, rfl, by simp [stored]⟩
  | directory unstored below isDirectory => exact ⟨true, rfl, by simp [below]⟩
  | nothing unstored empty isMissing =>
    dsimp only
    rw [if_pos isMissing]
    exact ⟨false, rfl, by simp [unstored, empty]⟩

/-- **The children of a directory**, as paths, unless the store has a page that does not pass its
check. -/
theorem Locates.collect_cases (hb : s.bucket? bucket = some b) {rounds : Nat}
    (hlen : (entries b (insidePrefix (joined ns)) (some slash)).length < rounds) :
    ∃ stream, f.children p = .ok stream ∧
      ((stream.collect rounds).run.run Store.handler (s, file) =
          (.ok ((childNames b (insidePrefix (joined ns))).map fun n =>
            ⟨fs.id, true, bucket :: (ns ++ [n])⟩), (s, file)) ∨
        ∃ e limit, (stream.collect rounds).run.run Store.handler (s, file) =
            (.error e, (s, file)) ∧
          0 < limit ∧ ChildStream.Refused b (insidePrefix (joined ns)) limit e) := by
  have hchildren : f.children p = ChildStream.new fs bucket (insidePrefix (joined ns)) := by
    rw [children, h.locate_eq]
    rfl
  rw [hchildren, ChildStream.new_eq h.isOpen (insidePrefix_ne_slash h.isName)
    (insidePrefix_terminated h.isName)]
  refine ⟨_, rfl, ?_⟩
  generalize hst : (⟨fs.id, fs.access, bucket, insidePrefix (joined ns), fs.settings.maxKeys, [], [],
    none, false⟩ : ChildStream) = st
  have hat : st.At s b none := by
    subst hst
    exact ⟨hb, isMarker_none, rfl, rfl⟩
  have hlisted : st.listed = insidePrefix (joined ns) := by rw [← hst]
  have hpaths : st.buffer ++ st.added (entries b st.listed (some slash)) =
      (childNames b (insidePrefix (joined ns))).map fun n =>
        ⟨fs.id, true, bucket :: (ns ++ [n])⟩ := by
    subst hst
    rw [List.nil_append, ChildStream.added, childNames, List.map_map]
    refine List.map_congr_left fun c hc => ?_
    have hname : IsName c.1 :=
      ((isChild_iff h.isName).1 (mem_childNames_iff.1 (List.mem_map_of_mem hc))).1
    rw [childPath_eq _ hc, insidePrefix_append h.isName, Path.ofBucketKey, if_neg h.bucket_ne,
      names_joined (isName_concat h.isName hname)]
    rfl
  rcases ChildStream.drain_cases file rounds none st hat (hlisted ▸ hlen) with
    hdrain | ⟨paths, e, hdrain, hrefused⟩
  · refine .inl ?_
    rw [hpaths] at hdrain
    simp only [ChildStream.collect, ExceptT.run, ExceptT.mk, Program.run_bind, hdrain,
      Program.run_done]
  · refine .inr ⟨e, s.effectiveLimit st.maxKeys, ?_, s.effectiveLimit_pos _, hlisted ▸ hrefused⟩
    simp only [ChildStream.collect, ExceptT.run, ExceptT.mk, Program.run_bind, hdrain,
      Program.run_done]

/-- Without an empty key, the children of a directory are always collected. -/
theorem Locates.collect_run (hb : s.bucket? bucket = some b) (hkeys : "" ∉ b.keys) {rounds : Nat}
    (hlen : (entries b (insidePrefix (joined ns)) (some slash)).length < rounds) :
    ∃ stream, f.children p = .ok stream ∧
      (stream.collect rounds).run.run Store.handler (s, file) =
        (.ok ((childNames b (insidePrefix (joined ns))).map fun n =>
          ⟨fs.id, true, bucket :: (ns ++ [n])⟩), (s, file)) := by
  obtain ⟨stream, hstream, hrun | ⟨e, limit, -, hlimit, m, hm, hcheck⟩⟩ :=
    h.collect_cases file hb hlen
  · exact ⟨stream, hstream, hrun⟩
  · rw [ChildStream.page_check_of_keys hkeys hlimit hm] at hcheck
    cases hcheck

end Memory

end Paths

end Files

end BucketFs
