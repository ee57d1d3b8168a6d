import BucketFs.Proofs.Files.Locate
import Mathlib.Data.List.Nodup

/-!
# Deleting an entry

* `Occupied` — whether something is at a key; `HasContent` — whether a directory has more below it
  than its own marker.
* `Listing.exists_other_shown` — a page of two entries shows such content, and so does any page
  where no marker is stored.
* `Files.Locates.ensureEmpty_passed`, `ensureEmpty_refused` — what the check of a directory says.
* `Files.delete_exact` — deleting removes the named entry alone, and no directory with content
  unless its marker fills the page of the check (`Files.delete_hidden_content`).
-/

namespace BucketFs

open BucketFs.Text BucketFs.Listing

/-- Whether a key lies below a directory, its marker included. -/
def HasBelow (b : Bucket) (key : String) : Prop :=
  ∃ k ∈ b.keys, hasPrefix (key ++ slash) k = true

/-- Whether a file or a directory is at a key. -/
def Occupied (b : Bucket) (key : String) : Prop := key ∈ b.keys ∨ HasBelow b key

/-- Nothing is at a key that is no file and no directory. -/
theorem not_occupied {b : Bucket} {ns : List String} (hne : ns ≠ []) (hfile : ¬ HasFile b ns)
    (hdirectory : ¬ HasDirectory b ns) : ¬ Occupied b (joined ns) := by
  rintro (hstored | hbelow)
  · exact hfile ⟨hne, hstored⟩
  · exact hdirectory (.inr hbelow)

/-- Whether a key other than the marker of a directory lies below the directory. -/
def HasContent (b : Bucket) (key : String) : Prop :=
  ∃ k ∈ b.keys, hasPrefix (key ++ slash) k = true ∧ k ≠ key ++ slash

/-- A directory without content has its marker. -/
theorem HasBelow.marked {b : Bucket} {key : String} (h : HasBelow b key)
    (hempty : ¬ HasContent b key) : key ++ slash ∈ b.keys := by
  obtain ⟨k, hk, hbelow⟩ := h
  have hmarker : k = key ++ slash :=
    Decidable.byContradiction fun hother => hempty ⟨k, hk, hbelow, hother⟩
  exact hmarker ▸ hk

/-- What deleting the entry of a key comes to.  An object hides a directory of the same name; a
directory with content stays, and so does the store where nothing is. -/
inductive Deletion (s : Store) (p : Path) (bucket : String) (b : Bucket) :
    Result Unit → Store → Prop
  | file {s' : Store} (stored : p.key ∈ b.keys) (removed : Store.Removed s s' bucket p.key) :
      Deletion s p bucket b (.ok ()) s'
  | marker {s' : Store} (unstored : p.key ∉ b.keys) (marked : p.key ++ slash ∈ b.keys)
      (empty : ¬ HasContent b p.key) (removed : Store.Removed s s' bucket (p.key ++ slash)) :
      Deletion s p bucket b (.ok ()) s'
  | refused (unstored : p.key ∉ b.keys) (content : HasContent b p.key) :
      Deletion s p bucket b (.error (.directoryNotEmpty p.render)) s
  | nothing {e : FsError} (vacant : ¬ Occupied b p.key) (isMissing : e.isMissing = true) :
      Deletion s p bucket b (.error e) s

/-! ## What a listing shows besides its own prefix -/

namespace Listing

variable {b : Bucket} {listed : String} {delimiter : Option String} {limit : Nat}

/-- A group has something behind the listed prefix. -/
theorem ListsGroup.ne_listed {g : String} (h : ListsGroup b listed delimiter g) : g ≠ listed := by
  obtain ⟨⟨d, p, -, hd, rfl, ⟨x, y, hxy⟩, -⟩, -⟩ := h
  intro heq
  have hp : p = "" := by simpa using heq
  rw [hp, String.toList_empty, List.append_eq_nil_iff, List.append_eq_nil_iff] at hxy
  exact hd (String.toList_injective hxy.1.2)

/-- The prefix itself is an entry only where it is stored. -/
theorem HasEntry.ne_listed {n : String} (h : HasEntry b listed delimiter n)
    (hlisted : listed ∉ b.keys) : n ≠ listed := by
  rcases hasEntry_iff.1 h with hkey | hgroup
  · exact fun heq => hlisted (heq ▸ hkey.stored)
  · exact hgroup.ne_listed

/-- Every key below the prefix brings an entry other than the prefix. -/
theorem exists_other {k : String} (hk : k ∈ b.keys) (hbelow : hasPrefix listed k = true)
    (hne : k ≠ listed) : ∃ n, HasEntry b listed delimiter n ∧ n ≠ listed := by
  obtain ⟨o, ho, rfl⟩ := List.mem_map.1 hk
  have hentry : entryOf listed (effective delimiter) o ∈ entries b listed delimiter :=
    mem_entries.2 ⟨o, ho, hbelow, rfl⟩
  refine ⟨_, ⟨_, hentry, rfl⟩, ?_⟩
  cases he : entryOf listed (effective delimiter) o with
  | object info =>
    have hname : info.key = o.1 := by
      unfold entryOf at he
      split at he
      · cases he
      · cases he
        rfl
    rwa [Entry.name, hname]
  | group g =>
    rw [he] at hentry
    exact (group_mem_iff.1 hentry).ne_listed

/-- **A page of two entries** shows one other than the prefix if the listing has one; a page of one
entry does so where the prefix itself is not stored. -/
theorem exists_other_shown (hlimit : 0 < limit) (h : 2 ≤ limit ∨ listed ∉ b.keys)
    (hother : ∃ n, HasEntry b listed delimiter n ∧ n ≠ listed) :
    ∃ n ∈ (page b listed delimiter none limit).names, n ≠ listed := by
  have hspec : PageSpec b listed delimiter none limit (page b listed delimiter none limit) :=
    page_spec b isMarker_none hlimit
  cases htruncated : (page b listed delimiter none limit).truncated with
  | false =>
    obtain ⟨n, hentry, hne⟩ := hother
    exact ⟨n, hspec.last htruncated n hentry (behind_none n), hne⟩
  | true =>
    -- a page that is cut has as many entries as the limit says
    have hlength : (page b listed delimiter none limit).names.length = limit := by
      rw [ListPage.length_names, (hspec.cut htruncated).1]
    rcases h with htwo | hlisted
    · have hsingle : (page b listed delimiter none limit).names ≠ [listed] := by
        intro heq
        rw [heq, List.length_singleton] at hlength
        omega
      refine ((hspec.distinct.ne_singleton_iff listed).1 hsingle).resolve_left fun hnil => ?_
      rw [hnil, List.length_nil] at hlength
      omega
    · obtain ⟨n, hn⟩ := List.exists_mem_of_length_pos (hlength.symm ▸ hlimit)
      obtain ⟨e, he, rfl⟩ := mem_page_names.1 hn
      exact ⟨_, hn, HasEntry.ne_listed ⟨e, List.mem_of_mem_take he, rfl⟩ hlisted⟩

/-- A page shows nothing besides the prefix where nothing else is stored below it. -/
theorem eq_listed_of_shown {n : String} (hn : n ∈ (page b listed delimiter none limit).names)
    (hempty : ∀ k ∈ b.keys, hasPrefix listed k = true → k = listed) : n = listed := by
  obtain ⟨e, he, rfl⟩ := mem_page_names.1 hn
  have hentry : HasEntry b listed delimiter e.name := ⟨e, List.mem_of_mem_take he, rfl⟩
  rcases hasEntry_iff.1 hentry with hkey | hgroup
  · obtain ⟨rest, hrest, -⟩ := hkey.ungrouped
    exact hempty _ hkey.stored (hrest ▸ hasPrefix_append _ _)
  · -- a key of a group would be the prefix itself, which the group is longer than
    obtain ⟨⟨d, p, -, -, hp, -⟩, k, hk, hbelow⟩ := id hgroup
    have hlisted : hasPrefix listed e.name = true := hp ▸ hasPrefix_append listed p
    rw [hempty k hk (hasPrefix_trans hlisted hbelow)] at hbelow
    exact absurd (String.le_antisymm (le_of_hasPrefix hbelow)
      (le_of_hasPrefix hlisted)) hgroup.ne_listed

end Listing

namespace Files

section Directory

variable {f : Files} {p : Path} {fs : FileSystem} {bucket : String} {ns : List String} {s : Store}
  {b : Bucket} (file : LocalFile) (h : f.Locates p fs bucket ns) (hne : ns ≠ [])
  (hb : s.bucket? bucket = some b)

/-! ## The check of a directory -/

/-- The request for the page by which the directory of some names is checked. -/
abbrev checkQuery (bucket : String) (ns : List String) : ListQuery where
  bucket
  listed := joined ns ++ slash
  delimiter := some slash
  maxKeys := 2

/-- The page by which a directory is checked. -/
abbrev checkedPage (s : Store) (b : Bucket) (ns : List String) : ListPage :=
  page b (joined ns ++ slash) (some slash) none (s.effectiveLimit 2)

/-- The check looks for an entry other than the marker. -/
theorem checkedPage_blocks_iff :
    ((checkedPage s b ns).commonPrefixes ≠ [] ∨
        (checkedPage s b ns).keys.any (fun k => k ≠ joined ns ++ slash) = true) ↔
      ∃ n ∈ (checkedPage s b ns).names, n ≠ joined ns ++ slash := by
  simp only [ListPage.names, List.mem_append, List.any_eq_true, decide_eq_true_eq]
  constructor
  · rintro (hgroups | ⟨k, hk, hother⟩)
    · obtain ⟨g, hg⟩ := List.exists_mem_of_ne_nil _ hgroups
      have hspec : PageSpec b (joined ns ++ slash) (some slash) none (s.effectiveLimit 2)
        (checkedPage s b ns) := page_spec b isMarker_none (s.effectiveLimit_pos 2)
      exact ⟨g, .inr hg, (group_mem_iff.1 (hspec.groups g hg)).ne_listed⟩
    · exact ⟨k, .inl hk, hother⟩
  · rintro ⟨n, hkey | hgroup, hother⟩
    · exact .inr ⟨n, hkey, hother⟩
    · exact .inl (List.ne_nil_of_mem hgroup)

include h hne hb

/-- The check refuses a directory whose page shows more than the marker. -/
theorem Locates.ensureEmpty_run :
    (f.ensureEmpty p).run.run Store.handler (s, file) =
      (if ∃ n ∈ (checkedPage s b ns).names, n ≠ joined ns ++ slash then
        .error (.directoryNotEmpty p.render) else .ok (), (s, file)) := by
  have hask : (Action.ask fs.access (.list (checkQuery bucket ns))).run.run Store.handler
      (s, file) = (.ok (checkedPage s b ns), (s, file)) := by
    rw [Action.run_ask]
    exact congrArg (·, (s, file)) (Store.list_eq (r := checkQuery bucket ns) hb none)
  rw [ensureEmpty, h.locate_eq, Action.ofResult_ok_bind]
  dsimp only
  rw [insidePrefix_joined h.isName hne, Action.run_bind_ok hask]
  simp only [checkedPage_blocks_iff]
  split
  · rfl
  · rfl

/-- **A directory without content passes its check.** -/
theorem Locates.ensureEmpty_passed (hempty : ¬ HasContent b p.key) :
    (f.ensureEmpty p).run.run Store.handler (s, file) = (.ok (), (s, file)) := by
  rw [h.key_eq] at hempty
  rw [h.ensureEmpty_run file hne hb, if_neg]
  rintro ⟨n, hn, hother⟩
  refine hother (eq_listed_of_shown hn fun k hk hbelow => ?_)
  exact Decidable.byContradiction fun hk' => hempty ⟨k, hk, hbelow, hk'⟩

/-- **A directory with content is refused**, unless the marker is all that fits on the page. -/
theorem Locates.ensureEmpty_refused (hcontent : HasContent b p.key)
    (hpage : 2 ≤ s.pageLimit ∨ p.key ++ slash ∉ b.keys) :
    (f.ensureEmpty p).run.run Store.handler (s, file) =
      (.error (.directoryNotEmpty p.render), (s, file)) := by
  rw [h.key_eq] at hcontent hpage
  obtain ⟨k, hk, hbelow, hother⟩ := hcontent
  have hlimit : 2 ≤ s.effectiveLimit 2 ∨ joined ns ++ slash ∉ b.keys := by
    refine hpage.imp_left fun htwo => ?_
    rw [Store.effectiveLimit, if_neg (by decide)]
    exact Nat.le_min.2 ⟨Nat.le_refl 2, htwo⟩
  rw [h.ensureEmpty_run file hne hb, if_pos]
  exact exists_other_shown (s.effectiveLimit_pos 2) hlimit (exists_other hk hbelow hother)

/-! ## Deleting -/

/-- What is deleted is the object behind the entry. -/
theorem Locates.unlink_run (isDirectory : Bool) :
    ∃ s', (f.unlink p isDirectory).run.run Store.handler (s, file) = (.ok (), (s', file)) ∧
      Store.Removed s s' bucket (if isDirectory then p.key ++ slash else p.key) := by
  refine ⟨_, ?_, Store.removed_setBucket hb _⟩
  rw [h.key_eq, unlink, h.locate_eq, Action.ofResult_ok_bind]
  dsimp only
  rw [insidePrefix_joined h.isName hne, Action.run_ask]
  simp only [Store.handler, Store.answer, Store.delete_eq_ok hb]

end Directory

/-- **Deleting removes exactly the named entry**, and no directory with content, where the page of
the check has room for more than a marker. -/
theorem delete_exact (f : Files) (s : Store) (file : LocalFile) {p : Path} {fs : FileSystem}
    {bucket : String} {b : Bucket} (hp : p.Proper) (hopen : f.openFileSystem p = .ok fs)
    (hbucket : p.bucket? = some bucket) (hb : s.bucket? bucket = some b) (hkey : p.key ≠ "")
    (hpage : p.key ∉ b.keys → HasContent b p.key → 2 ≤ s.pageLimit ∨ p.key ++ slash ∉ b.keys) :
    ∃ r s', (f.delete p).run.run Store.handler (s, file) = (r, (s', file)) ∧
      Deletion s p bucket b r s' := by
  have h := Locates.of_proper hp hopen hbucket
  have hne : p.keyNames ≠ [] := fun hnil => hkey (h.key_eq_empty_iff.2 hnil)
  rw [Path.key_eq] at hkey
  have hstored : HasFile b p.keyNames ↔ p.key ∈ b.keys := ⟨fun h => h.stored, fun h => ⟨hne, h⟩⟩
  obtain ⟨r, hrun, hstatus⟩ := h.status_run file hb
  rw [delete, h.locate_eq, Action.ofResult_ok_bind]
  dsimp only
  rw [if_neg hkey]
  cases hstatus with
  | @file a stored isFile =>
    obtain ⟨s', hunlink, hremoved⟩ := h.unlink_run file hne hb false
    refine ⟨_, s', ?_, .file (hstored.1 stored) hremoved⟩
    rw [Action.run_bind_ok hrun, isFile]
    exact hunlink
  | @directory a unstored below isDirectory =>
    rw [hstored] at unstored
    rw [Action.run_bind_ok hrun, isDirectory]
    simp only [if_true]
    by_cases hcontent : HasContent b p.key
    · have hcheck := h.ensureEmpty_refused file hne hb hcontent (hpage unstored hcontent)
      exact ⟨_, s, Action.run_bind_error hcheck, .refused unstored hcontent⟩
    · obtain ⟨s', hunlink, hremoved⟩ := h.unlink_run file hne hb true
      have hbelow : HasBelow b p.key := below.resolve_left hne
      refine ⟨_, s', ?_, .marker unstored (hbelow.marked hcontent) hcontent hremoved⟩
      rw [Action.run_bind_ok (h.ensureEmpty_passed file hne hb hcontent)]
      exact hunlink
  | @nothing e unstored empty isMissing =>
    have hvacant : ¬ Occupied b p.key := not_occupied hne unstored empty
    exact ⟨_, s, Action.run_bind_error hrun, .nothing hvacant isMissing⟩

/-- A directory with a marker and a file, on pages of two entries. -/
theorem delete_exact_directory :
    let fs : FileSystem := ⟨0, ⟨"", ""⟩, {}, ⟨0, 0⟩, true⟩
    let f : Files := { fileSystems := [fs], rounds := 3 }
    let p : Path := ⟨0, true, ["b", "d"]⟩
    let o : ObjectRecord := ⟨[], "", .epoch, .byDefault⟩
    let b : Bucket := ((KeyMap.empty : Bucket).insert "d/x" o).insert "d/" o
    let s : Store := (Store.new 2 .epoch).setBucket "b" b
    p.Proper ∧ f.openFileSystem p = .ok fs ∧ p.bucket? = some "b" ∧ s.bucket? "b" = some b ∧
      p.key ≠ "" ∧ p.key ∉ b.keys ∧ HasContent b p.key ∧ 2 ≤ s.pageLimit ∧
      ∃ r s', (f.delete p).run.run Store.handler (s, .absent) = (r, (s', .absent)) ∧
        Deletion s p "b" b r s' := by
  intro fs f p o b s
  have hp : p.Proper := Path.proper_of_isName (by decide)
  have hopen : f.openFileSystem p = .ok fs := rfl
  have hb : s.bucket? "b" = some b := by simp [s]
  have hkey : p.key ≠ "" := by decide
  have hcontent : HasContent b p.key := ⟨"d/x", by decide, by decide, by decide⟩
  exact ⟨hp, hopen, rfl, hb, hkey, by decide, hcontent, by decide,
    delete_exact f s .absent hp hopen rfl hb hkey fun _ _ => .inl (by decide)⟩

/-- On pages of one entry the marker hides the file: the directory loses its marker, and nobody is
told of the file that is left in it. -/
theorem delete_hidden_content :
    let fs : FileSystem := ⟨0, ⟨"", ""⟩, {}, ⟨0, 0⟩, true⟩
    let f : Files := { fileSystems := [fs], rounds := 3 }
    let p : Path := ⟨0, true, ["b", "d"]⟩
    let o : ObjectRecord := ⟨[], "", .epoch, .byDefault⟩
    let b : Bucket := ((KeyMap.empty : Bucket).insert "d/x" o).insert "d/" o
    let s : Store := (Store.new 1 .epoch).setBucket "b" b
    let deleted := (f.delete p).run.run Store.handler (s, .absent)
    p.key ∉ b.keys ∧ HasContent b p.key ∧ deleted.1 = .ok () ∧
      deleted.2.1.object? "b" "d/" = none ∧ deleted.2.1.object? "b" "d/x" = some o := by
  intro fs f p o b s deleted
  have hcontent : HasContent b p.key := ⟨"d/x", by decide, by decide, by decide⟩
  exact ⟨by decide, hcontent, by decide +kernel, by decide +kernel, by decide +kernel⟩

end Files

end BucketFs
