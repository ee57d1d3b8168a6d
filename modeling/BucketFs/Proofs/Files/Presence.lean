import BucketFs.Proofs.Files.Locate

/-!
# Listing and status agree

What is at a path can be asked for in two ways: by the status of the path, and by the children of
its parent.

* `exists_iff_listed` — both give the same answer, and a status tells a file from a directory by
  the object at the key alone.
-/

namespace BucketFs

open BucketFs.Text BucketFs.Listing

namespace Files

/-- A path below a bucket is a name behind the names of its parent. -/
theorem Locates.parent {f : Files} {p : Path} {fs : FileSystem} {bucket : String}
    {ns : List String} {n : String} (h : f.Locates p fs bucket (ns ++ [n])) :
    p.parent? = some ⟨fs.id, true, bucket :: ns⟩ ∧
      f.Locates ⟨fs.id, true, bucket :: ns⟩ fs bucket ns := by
  have hp := h.path_eq
  refine ⟨?_, openFileSystem_congr h.opened ?_, rfl, h.bucket_ne, fun m hm => ?_⟩
  · have hdrop : (bucket :: (ns ++ [n])).dropLast = bucket :: ns := by
      rw [← List.cons_append, List.dropLast_concat]
    rw [hp, Path.parent?, if_neg (by simp)]
    dsimp only
    rw [hdrop]
  · rw [hp]
  · exact h.isName m (List.mem_append_left _ hm)

/-- A path inside a bucket has a key. -/
theorem keyNames_ne_nil {p : Path} {bucket : String} (hbucket : p.bucket? = some bucket)
    (hdepth : 2 ≤ p.depth) : p.keyNames ≠ [] := by
  intro hnil
  have hsegments : p.segments.tail = [] := by
    rwa [Path.keyNames, if_pos (Path.absolute_of_bucket hbucket)] at hnil
  have hlength := congrArg List.length hsegments
  rw [List.length_tail, List.length_nil] at hlength
  rw [Path.depth] at hdepth
  omega

/-- The status of what is there is that of a file if its object is stored. -/
theorem Locates.status_of_present {f : Files} {s : Store} (file : LocalFile) {p : Path}
    {fs : FileSystem} {bucket : String} {b : Bucket} {ns : List String}
    (hp : f.Locates p fs bucket ns) (hne : ns ≠ []) (hb : s.bucket? bucket = some b)
    (hpresent : HasFile b ns ∨ HasDirectory b ns) :
    ∃ a, (f.status p).run.run Store.handler (s, file) = (.ok a, (s, file)) ∧
      (a.isFile = true ↔ (s.object? bucket p.key).isSome = true) ∧
      (a.isDirectory = true ↔ s.object? bucket p.key = none) := by
  obtain ⟨r, hrun, hstatus⟩ := hp.status_run file hb
  have hstored := hasFile_iff hb hne
  rw [← hp.key_eq] at hstored
  cases hstatus with
  | @file a stored isFile =>
    have hsome := hstored.1 stored
    refine ⟨a, hrun, by simp [FileStatus.isFile, isFile, hsome], ?_⟩
    rw [isFile, ← Option.not_isSome_iff_eq_none, hsome]
    simp
  | @directory a unstored below isDirectory =>
    rw [hstored] at unstored
    refine ⟨a, hrun, by simp [FileStatus.isFile, isDirectory, unstored], ?_⟩
    rw [isDirectory, ← Option.not_isSome_iff_eq_none]
    simp [unstored]
  | nothing unstored empty isMissing => exact absurd hpresent (by simp [unstored, empty])

/-- **Something is at a path just when the directory above lists it**, whatever the page limits are;
and then its status is that of a file exactly when an object has its key. -/
theorem exists_iff_listed (f : Files) (s : Store) (file : LocalFile) {p : Path} {fs : FileSystem}
    {bucket : String} {b : Bucket} (hp : p.Proper) (hdepth : 2 ≤ p.depth)
    (hopen : f.openFileSystem p = .ok fs) (hbucket : p.bucket? = some bucket)
    (hb : s.bucket? bucket = some b) (hkeys : "" ∉ b.keys) (hrounds : b.size < f.rounds) :
    ∃ parent stream paths found,
      p.parent? = some parent ∧ f.children parent = .ok stream ∧
      (stream.collect f.rounds).run.run Store.handler (s, file) = (.ok paths, (s, file)) ∧
      (f.exists? p).run.run Store.handler (s, file) = (.ok found, (s, file)) ∧
      (found = true ↔ p ∈ paths) ∧
      (found = true → ∃ a, (f.status p).run.run Store.handler (s, file) = (.ok a, (s, file)) ∧
        (a.isFile = true ↔ (s.object? bucket p.key).isSome = true) ∧
        (a.isDirectory = true ↔ s.object? bucket p.key = none)) := by
  have hlocates := Locates.of_proper hp hopen hbucket
  -- the last name of the path and the names of its parent
  obtain ⟨ns, n, hsplit⟩ : ∃ ns n, p.keyNames = ns ++ [n] :=
    ⟨_, _, (List.dropLast_concat_getLast (keyNames_ne_nil hbucket hdepth)).symm⟩
  rw [hsplit] at hlocates
  obtain ⟨hparent, hdirectory⟩ := hlocates.parent
  have hlast : IsName n := hlocates.isName n (by simp)
  have hentries : (entries b (insidePrefix (joined ns)) (some slash)).length < f.rounds :=
    Nat.lt_of_le_of_lt (length_entriesAfter_le b none) hrounds
  obtain ⟨stream, hstream, hcollect⟩ := hdirectory.collect_run file hb hkeys hentries
  obtain ⟨found, hexists, hfound⟩ := hlocates.exists_run file hb
  refine ⟨_, stream, _, found, hparent, hstream, hcollect, hexists, ?_, ?_⟩
  · have hlisted : p ∈ (childNames b (insidePrefix (joined ns))).map
        (fun m => (⟨fs.id, true, bucket :: (ns ++ [m])⟩ : Path)) ↔
          n ∈ childNames b (insidePrefix (joined ns)) := by
      rw [List.mem_map, hlocates.path_eq]
      constructor
      · rintro ⟨m, hm, heq⟩
        simp only [Path.mk.injEq, List.cons.injEq, List.append_cancel_left_eq, and_true,
          true_and] at heq
        rwa [← heq]
      · intro hn
        exact ⟨n, hn, rfl⟩
    rw [hlisted, mem_childNames_iff, isChild_iff hdirectory.isName, hfound]
    exact ⟨fun h => ⟨hlast, h⟩, fun h => h.2⟩
  · exact fun htrue => hlocates.status_of_present file (by simp) hb (hfound.1 htrue)

/-- A directory without a marker, on pages of one entry. -/
theorem exists_iff_listed_unmarked :
    let fs : FileSystem := ⟨0, ⟨"", ""⟩, {}, ⟨0, 0⟩, true⟩
    let f : Files := { fileSystems := [fs], rounds := 3 }
    let p : Path := ⟨0, true, ["b", "d"]⟩
    let o : ObjectRecord := ⟨[], "", .epoch, .byDefault⟩
    let b : Bucket := ((KeyMap.empty : Bucket).insert "d/x" o).insert "e" o
    let s : Store := (Store.new 1 .epoch).setBucket "b" b
    p.Proper ∧ 2 ≤ p.depth ∧ f.openFileSystem p = .ok fs ∧
      p.bucket? = some "b" ∧ s.bucket? "b" = some b ∧ "" ∉ b.keys ∧ b.size < f.rounds ∧
      ∃ stream paths found,
        f.children ⟨0, true, ["b"]⟩ = .ok stream ∧
        (stream.collect 3).run.run Store.handler (s, .absent) = (.ok paths, (s, .absent)) ∧
        (f.exists? p).run.run Store.handler (s, .absent) = (.ok found, (s, .absent)) ∧
        (found = true ↔ p ∈ paths) := by
  intro fs f p o b s
  have hp : p.Proper := Path.proper_of_isName (by decide)
  have hopen : f.openFileSystem p = .ok fs := rfl
  have hb : s.bucket? "b" = some b := by simp [s]
  have hkeys : "" ∉ b.keys := by decide
  obtain ⟨parent, stream, paths, found, hparent, hstream, hcollect, hexists, hfound, -⟩ :=
    exists_iff_listed f s .absent hp (by decide) hopen rfl hb hkeys (by decide)
  obtain rfl := Option.some.inj hparent
  exact ⟨hp, by decide, hopen, rfl, hb, hkeys, by decide, stream, paths, found, hstream,
    hcollect, hexists, hfound⟩

end Files

end BucketFs
