import BucketFs.Location.Path
import BucketFs.Proofs.Text.Names

/-!
# Paths with proper names

* `Path.Proper` — the names of the key are names, and the bucket is not empty.
* `Path.Named` — all names are names, those of the bucket included.
* `Path.proper_parse`, `Path.proper_ofBucketKey` — the paths that texts write and the paths of keys
  are proper.
* `Path.normalize_of_plain` — normalization changes only paths with dots.
-/

namespace BucketFs.Path

open BucketFs.Text

/-- The names that make up the key. -/
def keyNames (p : Path) : List String := if p.absolute then p.segments.tail else p.segments

theorem key_eq (p : Path) : p.key = joined p.keyNames := rfl

theorem absolute_of_bucket {p : Path} {bucket : String} (h : p.bucket? = some bucket) :
    p.absolute = true := by
  unfold bucket? at h
  split at h
  · assumption
  · cases h

/-- A path whose key is made of names and whose bucket is not empty. -/
structure Proper (p : Path) : Prop where
  isName : ∀ n ∈ p.keyNames, IsName n
  bucket : p.bucket? ≠ some ""

theorem proper_of_isName {p : Path} (h : ∀ n ∈ p.segments, IsName n) : p.Proper := by
  constructor
  · intro n hn
    apply h
    unfold keyNames at hn
    split at hn
    · exact List.mem_of_mem_tail hn
    · exact hn
  · intro hbucket
    unfold bucket? at hbucket
    split at hbucket
    · exact (h "" (List.mem_of_mem_head? hbucket)).nonempty rfl
    · cases hbucket

/-- A path all of whose names are names. -/
def Named (p : Path) : Prop := ∀ n ∈ p.segments, IsName n

instance (p : Path) : Decidable p.Named := inferInstanceAs (Decidable (∀ n ∈ p.segments, IsName n))

theorem Named.proper {p : Path} (h : p.Named) : p.Proper := proper_of_isName h

/-- **Texts write paths of names.** -/
theorem named_parse (fs : FsId) (first : String) (more : List String) :
    (parse fs first more).Named := by
  intro n hn
  obtain ⟨t, -, hn⟩ := List.mem_flatMap.1 hn
  exact isName_of_mem_names hn

/-- **Texts write proper paths.** -/
theorem proper_parse (fs : FsId) (first : String) (more : List String) :
    (parse fs first more).Proper := (named_parse fs first more).proper

theorem named_ofBucketKey (fs : FsId) {bucket : String} (hbucket : IsName bucket) (key : String) :
    (ofBucketKey fs bucket key).Named := by
  intro n hn
  rcases List.mem_append.1 hn with hn | hn
  · split at hn
    · cases hn
    · rw [List.mem_singleton.1 hn]
      exact hbucket
  · exact isName_of_mem_names hn

/-- A relative path is put behind another one, name by name. -/
theorem resolve_of_relative {p q : Path} (h : q.absolute = false) :
    p.resolve q = { p with segments := p.segments ++ q.segments } := by
  rw [resolve, if_neg (by rw [h]; exact Bool.false_ne_true)]
  split
  · rename_i hempty
    rw [List.isEmpty_iff.1 hempty, List.append_nil]
  · rfl

theorem Named.lastName {p last : Path} (hp : p.Named) (h : p.lastName? = some last) :
    last.Named := by
  obtain ⟨n, hn, rfl⟩ := Option.map_eq_some_iff.1 h
  intro m hm
  rw [List.mem_singleton.1 hm]
  exact hp n (List.mem_of_getLast? hn)

theorem Named.resolve {p q : Path} (hp : p.Named) (hq : q.Named) : (p.resolve q).Named := by
  by_cases habsolute : q.absolute = true
  · rwa [Path.resolve, if_pos habsolute]
  · rw [resolve_of_relative (Bool.not_eq_true _ ▸ habsolute)]
    exact List.forall_mem_append.2 ⟨hp, hq⟩

/-- **The path of a key is proper.** -/
theorem proper_ofBucketKey (fs : FsId) (bucket key : String) (hbucket : bucket ≠ "") :
    (ofBucketKey fs bucket key).Proper := by
  rw [ofBucketKey, if_neg hbucket]
  refine ⟨fun n hn => ?_, fun h => hbucket (Option.some.inj h)⟩
  exact isName_of_mem_names hn

/-! ## Normalization -/

theorem foldl_normalizeStep {ns : List String} (h : ∀ n ∈ ns, n ≠ selfName ∧ n ≠ upName) :
    ∀ kept, ns.foldl normalizeStep kept = ns.reverse ++ kept := by
  induction ns with
  | nil => intro kept; rfl
  | cons n rest ih =>
    intro kept
    obtain ⟨hself, hup⟩ := h n List.mem_cons_self
    rw [List.foldl_cons, normalizeStep, if_neg hself, if_neg hup,
      ih fun m hm => h m (List.mem_cons_of_mem _ hm), List.reverse_cons, List.append_assoc]
    rfl

/-- **A path without dots is normal.** -/
theorem normalize_of_plain {p : Path} (h : ∀ n ∈ p.segments, n ≠ selfName ∧ n ≠ upName) :
    p.normalize = p := by
  rw [normalize, foldl_normalizeStep h, List.append_nil, List.reverse_reverse]

end BucketFs.Path
