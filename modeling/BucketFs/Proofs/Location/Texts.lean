import BucketFs.Proofs.Location.Ways

/-!
# Paths, their texts and their objects

A path of names is what its text says, and below the root it is what the bucket and the key of its
object say.  The operations on paths lead from paths of names to paths of names.

* `Obtained` — the paths that texts, keys and operations make; `Obtained.named` — they are paths of
  names.
* `parse_render` — the text of a path of names writes just that path.
* `ofBucketKey_key` — the bucket and the key of a path of names lead back to it.
* `parse_joined` — several texts write what their joined text writes.
* `named_paths_faithful` — paths of names stand for their texts and for their objects, one for one.
-/

namespace BucketFs.Path

open BucketFs.Text

variable {p q : Path}

/-! ## Operations on paths of names -/

theorem named_of_subset (hp : p.Named) (h : q.segments ⊆ p.segments) : q.Named :=
  fun n hn => hp n (h hn)

theorem Named.parent (hp : p.Named) (h : p.parent? = some q) : q.Named := by
  unfold parent? at h
  split at h
  · cases h
  · cases h
    exact named_of_subset hp (List.dropLast_subset _)

theorem Named.resolveBeside (hp : p.Named) (hq : q.Named) : (p.resolveBeside q).Named := by
  unfold Path.resolveBeside
  split
  · rename_i parent hparent
    exact (hp.parent hparent).resolve hq
  · exact hq

theorem Named.relativize {r : Path} (hq : q.Named) (h : p.relativize q = .ok r) : r.Named := by
  obtain ⟨-, -, rfl⟩ := relativize_eq_ok_iff.1 h
  refine List.forall_mem_append.2 ⟨fun n hn => ?_, fun n hn => hq n (List.mem_of_mem_drop hn)⟩
  rw [List.eq_of_mem_replicate hn]
  decide

theorem Named.normalize (hp : p.Named) : p.normalize.Named :=
  forall_normalize fun n hn _ => hp n hn

theorem Named.root (h : p.root? = some q) : q.Named := by
  unfold root? at h
  split at h
  · cases h
    exact fun _ hn => (List.not_mem_nil hn).elim
  · cases h

theorem Named.window (hp : p.Named) {first last : Nat} (h : p.window first last = .ok q) :
    q.Named := by
  unfold Path.window at h
  split at h
  · cases h
  · cases h
    exact named_of_subset hp fun n hn => List.mem_of_mem_drop (List.mem_of_mem_take hn)

theorem Named.nameAt (hp : p.Named) {index : Nat} (h : p.nameAt index = .ok q) : q.Named := by
  unfold Path.nameAt at h
  split at h
  · cases h
  · exact hp.window h

theorem Named.nameList (hp : p.Named) (h : q ∈ p.nameList) : q.Named := by
  obtain ⟨n, hn, rfl⟩ := List.mem_map.1 h
  exact named_of_subset hp (List.cons_subset.2 ⟨hn, List.nil_subset _⟩)

/-- The paths that can be obtained: those that texts write, those of the keys of proper buckets, and
all that the operations make of them. -/
inductive Obtained : Path → Prop where
  | parse (fs : FsId) (first : String) (more : List String) : Obtained (.parse fs first more)
  | ofBucketKey (fs : FsId) {bucket : String} (nonempty : bucket ≠ "")
    (single : separator ∉ bucket.toList) (key : String) : Obtained (.ofBucketKey fs bucket key)
  | resolve {p q : Path} (hp : Obtained p) (hq : Obtained q) : Obtained (p.resolve q)
  | resolveBeside {p q : Path} (hp : Obtained p) (hq : Obtained q) : Obtained (p.resolveBeside q)
  | relativize {p q r : Path} (hp : Obtained p) (hq : Obtained q) (h : p.relativize q = .ok r) :
    Obtained r
  | normalize {p : Path} (hp : Obtained p) : Obtained p.normalize
  | parent {p q : Path} (hp : Obtained p) (h : p.parent? = some q) : Obtained q
  | lastName {p q : Path} (hp : Obtained p) (h : p.lastName? = some q) : Obtained q
  | root {p q : Path} (hp : Obtained p) (h : p.root? = some q) : Obtained q
  | nameAt {p q : Path} {index : Nat} (hp : Obtained p) (h : p.nameAt index = .ok q) : Obtained q
  | window {p q : Path} {first last : Nat} (hp : Obtained p) (h : p.window first last = .ok q) :
    Obtained q
  | nameList {p q : Path} (hp : Obtained p) (h : q ∈ p.nameList) : Obtained q
  | toAbsolute {p : Path} (hp : Obtained p) : Obtained p.toAbsolute

/-- **Only paths of names can be obtained.** -/
theorem Obtained.named (h : Obtained p) : p.Named := by
  induction h with
  | parse fs first more => exact named_parse fs first more
  | ofBucketKey fs nonempty single key => exact named_ofBucketKey fs ⟨nonempty, single⟩ key
  | resolve _ _ hp hq => exact hp.resolve hq
  | resolveBeside _ _ hp hq => exact hp.resolveBeside hq
  | relativize _ _ h _ hq => exact hq.relativize h
  | normalize _ hp => exact hp.normalize
  | parent _ h hp => exact hp.parent h
  | lastName _ h hp => exact hp.lastName h
  | root _ h _ => exact Named.root h
  | nameAt _ h hp => exact hp.nameAt h
  | window _ h hp => exact hp.window h
  | nameList _ h hp => exact hp.nameList h
  | toAbsolute _ hp => exact hp

/-! ## Texts -/

/-- The text of a path starts with a separator just if the path is absolute. -/
theorem startsWithSeparator_render (hp : p.Named) :
    startsWithSeparator p.render = p.absolute := by
  obtain ⟨fs, absolute, segments⟩ := p
  cases absolute with
  | true => exact startsWithSeparator_slash_append _
  | false =>
    rw [render, if_neg Bool.false_ne_true, String.empty_append]
    cases segments with
    | nil => rfl
    | cons n rest =>
      have hn : IsName n := hp n List.mem_cons_self
      rw [startsWithSeparator_joined hn.nonempty, hn.startsWithSeparator_eq]

theorem names_render (hp : p.Named) : names p.render = p.segments := by
  rw [render]
  split
  · rw [names_slash_append, names_joined hp]
  · rw [String.empty_append, names_joined hp]

/-- **The text of a path** writes just that path. -/
theorem parse_render (hp : p.Named) : parse p.fs p.render [] = p := by
  rw [parse, startsWithSeparator_render hp, List.flatMap_singleton, names_render hp]

theorem render_inj (hp : p.Named) (hq : q.Named) (hfs : p.fs = q.fs) :
    p = q ↔ p.render = q.render := by
  constructor
  · rintro rfl
    rfl
  · intro h
    rw [← parse_render hp, h, hfs, parse_render hq]

/-- **Several texts** write what their joined text writes. -/
theorem parse_joined (fs : FsId) {first : String} (h : first ≠ "") (more : List String) :
    parse fs first more = parse fs (joined (first :: more)) [] := by
  rw [parse, parse, startsWithSeparator_joined h, List.flatMap_singleton, names_joined_texts]

/-! ## Objects -/

/-- **The bucket and the key of a path** lead back to it. -/
theorem ofBucketKey_key (hp : p.Named) {bucket : String} (hbucket : p.bucket? = some bucket) :
    ofBucketKey p.fs bucket p.key = p := by
  have habsolute := absolute_of_bucket hbucket
  obtain ⟨fs, absolute, segments⟩ := p
  obtain rfl : absolute = true := habsolute
  obtain ⟨rest, rfl⟩ : ∃ rest, segments = bucket :: rest := List.head?_eq_some_iff.1 hbucket
  have hnames : IsName bucket ∧ ∀ n ∈ rest, IsName n := List.forall_mem_cons.1 hp
  rw [ofBucketKey, if_neg hnames.1.nonempty, key_eq]
  exact congrArg (Path.mk fs true) (congrArg (bucket :: ·) (names_joined hnames.2))

/-- Absolute paths with the same bucket and the same key are equal. -/
theorem eq_of_bucket_key (hp : p.Named) (hq : q.Named) (hfs : p.fs = q.fs)
    (hpabsolute : p.absolute = true) (hqabsolute : q.absolute = true)
    (hbucket : p.bucket? = q.bucket?) (hkey : p.key = q.key) : p = q := by
  cases hbucket' : q.bucket? with
  | some bucket =>
    rw [← ofBucketKey_key hp (hbucket.trans hbucket'), hfs, hkey, ofBucketKey_key hq hbucket']
  | none =>
    -- both are the root
    have hroot : ∀ {r : Path}, r.absolute = true → r.bucket? = none → r.segments = [] := by
      intro r habsolute hnone
      rwa [bucket?, if_pos habsolute, List.head?_eq_none_iff] at hnone
    rw [Path.mk.injEq]
    exact ⟨hfs, hpabsolute.trans hqabsolute.symm,
      (hroot hpabsolute (hbucket.trans hbucket')).trans (hroot hqabsolute hbucket').symm⟩

/-- **Paths of names stand for their texts and for their objects, one for one.**  They are just the
paths that can be obtained, whatever texts are written and whatever is done to their paths; the text
of each writes it, different absolute ones name different objects, and joining texts does not change
what they write. -/
theorem named_paths_faithful :
    (∀ p : Path, Obtained p ↔ p.Named) ∧
    (∀ p : Path, p.Named → parse p.fs p.render [] = p) ∧
    (∀ p q : Path, p.Named → q.Named → p.fs = q.fs → (p = q ↔ p.render = q.render)) ∧
    (∀ (p : Path) (bucket : String), p.Named → p.bucket? = some bucket →
      ofBucketKey p.fs bucket p.key = p) ∧
    (∀ p q : Path, p.Named → q.Named → p.fs = q.fs → p.absolute = true → q.absolute = true →
      p.bucket? = q.bucket? → p.key = q.key → p = q) ∧
    (∀ (fs : FsId) (first : String) (more : List String), first ≠ "" →
      parse fs first more = parse fs (joined (first :: more)) []) := by
  refine ⟨fun p => ⟨Obtained.named, fun hp => ?_⟩, fun p => parse_render, fun p q => render_inj,
    fun p bucket hp => ofBucketKey_key hp, fun p q => eq_of_bucket_key,
    fun fs first more h => parse_joined fs h more⟩
  rw [← parse_render hp]
  exact .parse p.fs p.render []

/-- A path that is written with superfluous separators and then gone up from. -/
theorem named_paths_faithful_parent :
    let p := parse 0 "//b//x/" ["", "y/z"]
    let q : Path := ⟨0, true, ["b", "x", "y"]⟩
    Obtained p ∧ p.parent? = some q ∧ parse 0 q.render [] = q ∧
      q.bucket? = some "b" ∧ ofBucketKey 0 "b" q.key = q ∧
      p = parse 0 (joined ["//b//x/", "", "y/z"]) [] := by
  intro p q
  obtain ⟨hobtained, htext, -, hobject, -, hjoined⟩ := named_paths_faithful
  have hp : Obtained p := .parse 0 "//b//x/" ["", "y/z"]
  have hparent : p.parent? = some q := by decide
  have hq : q.Named := (Obtained.parent hp hparent).named
  exact ⟨hp, hparent, htext q hq, rfl, hobject q "b" hq rfl, hjoined 0 _ _ (by decide)⟩

end BucketFs.Path
