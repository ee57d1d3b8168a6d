import BucketFs.Files.Copy
import BucketFs.Proofs.Files.Locate
import Mathlib.Data.List.Infix
import Mathlib.Data.List.Perm.Subperm

/-!
# The work list of a tree copy

A tree is copied from a work list of places.  Every place of the list is given by the names that
lead to it from the source, and by the same names from the target.

* `Apart`, `apart_expand` — no place of the list lies inside another one, and putting the children
  of a directory in its place keeps it so.
* `ahead_expand_lt` — of finitely many places there are fewer and fewer that the list leads to.
* `Trees` — the source and the target of a copy; `Trees.work_expand` and `Trees.collect_cases` say
  what a round adds to the list.
-/

namespace BucketFs

open BucketFs.Text BucketFs.Listing

/-! ## Places -/

namespace Worklist

variable {ps all : List (List String)} {p q r ns : List String}

/-- Whether neither of two places lies inside the other one. -/
def Apart (p q : List String) : Prop := ¬ p <+: q ∧ ¬ q <+: p

theorem Apart.symm (h : Apart p q) : Apart q p := ⟨h.2, h.1⟩

/-- A place that stands apart is not around what is inside the other one. -/
theorem Apart.not_prefix_append (h : Apart p q) (r : List String) : ¬ p <+: q ++ r := by
  intro hpre
  rcases List.prefix_or_prefix_of_prefix hpre (List.prefix_append q r) with hin | hout
  · exact h.1 hin
  · exact h.2 hout

/-- Whether a place is on a work list or inside one that is. -/
def Covers (ps : List (List String)) (r : List String) : Prop := ∃ p ∈ ps, p <+: r

instance (ps : List (List String)) (r : List String) : Decidable (Covers ps r) :=
  inferInstanceAs (Decidable (∃ p ∈ ps, p <+: r))

/-- The places directly inside another one, the last name first. -/
def expand (p ns : List String) : List (List String) := (ns.map fun n => p ++ [n]).reverse

theorem mem_expand : q ∈ expand p ns ↔ ∃ n ∈ ns, p ++ [n] = q := by
  rw [expand, List.mem_reverse, List.mem_map]

theorem not_covers_nil : ¬ Covers [] r := by
  rintro ⟨p, hp, -⟩
  cases hp

theorem covers_cons : Covers (p :: ps) r ↔ p <+: r ∨ Covers ps r := by
  simp only [Covers, List.mem_cons, exists_eq_or_imp]

theorem covers_expand :
    Covers (expand p ns ++ ps) r ↔ (∃ n ∈ ns, p ++ [n] <+: r) ∨ Covers ps r := by
  constructor
  · rintro ⟨q, hq, hqr⟩
    rcases List.mem_append.1 hq with hq | hq
    · obtain ⟨n, hn, rfl⟩ := mem_expand.1 hq
      exact .inl ⟨n, hn, hqr⟩
    · exact .inr ⟨q, hq, hqr⟩
  · rintro (⟨n, hn, hnr⟩ | ⟨q, hq, hqr⟩)
    · exact ⟨_, List.mem_append_left _ (mem_expand.2 ⟨n, hn, rfl⟩), hnr⟩
    · exact ⟨q, List.mem_append_right _ hq, hqr⟩

/-- What is covered behind a round was covered before. -/
theorem covers_of_expand (h : Covers (expand p ns ++ ps) r) : Covers (p :: ps) r := by
  rw [covers_cons]
  rcases covers_expand.1 h with ⟨n, -, hn⟩ | h
  · exact .inl ((List.prefix_append p [n]).trans hn)
  · exact .inr h

/-- **No place returns**: what is covered behind a round is neither the place of the round nor one
around it. -/
theorem not_prefix_of_covers_expand (hapart : (p :: ps).Pairwise Apart)
    (h : Covers (expand p ns ++ ps) r) : ¬ r <+: p := by
  intro hrp
  rcases covers_expand.1 h with ⟨n, -, hn⟩ | ⟨q, hq, hqr⟩
  · have hle := (hn.trans hrp).length_le
    rw [List.length_append, List.length_singleton] at hle
    omega
  · exact ((List.pairwise_cons.1 hapart).1 q hq).2 (hqr.trans hrp)

/-- The children of a directory stand apart in its place. -/
theorem apart_expand (hapart : (p :: ps).Pairwise Apart) (hns : ns.Nodup) :
    (expand p ns ++ ps).Pairwise Apart := by
  obtain ⟨hhead, htail⟩ := List.pairwise_cons.1 hapart
  rw [List.pairwise_append]
  refine ⟨?_, htail, fun q hq q' hq' => ?_⟩
  · rw [expand, List.pairwise_reverse, List.pairwise_map]
    refine hns.imp fun {m n} hne => ?_
    -- two places of one length are initial parts of each other only if they are equal
    have hunequal : ∀ {a b : String}, a ≠ b → ¬ p ++ [a] <+: p ++ [b] := by
      intro a b hab hpre
      have heq := hpre.eq_of_length (by simp)
      exact hab (List.singleton_inj.1 (List.append_cancel_left heq))
    exact ⟨hunequal hne.symm, hunequal hne⟩
  · obtain ⟨n, -, rfl⟩ := mem_expand.1 hq
    have hpq := hhead q' hq'
    constructor
    · exact fun hpre => hpq.1 ((List.prefix_append p [n]).trans hpre)
    · exact hpq.symm.not_prefix_append [n]

/-- A work list of one place leads to all places inside it. -/
theorem covers_start (r : List String) : Covers [[]] r :=
  ⟨[], List.mem_cons_self, List.nil_prefix⟩

/-- The number of places that a work list leads to, among finitely many. -/
def ahead (all ps : List (List String)) : Nat := all.countP fun r => Covers ps r

/-- **Every round leaves fewer places ahead.** -/
theorem ahead_expand_lt (hapart : (p :: ps).Pairwise Apart) (hp : p ∈ all) (ns : List String) :
    ahead all (expand p ns ++ ps) < ahead all (p :: ps) := by
  have hperm := List.perm_cons_erase hp
  have hmono : (all.erase p).countP (fun r => decide (Covers (expand p ns ++ ps) r)) ≤
      (all.erase p).countP fun r => decide (Covers (p :: ps) r) := by
    apply List.countP_mono_left
    intro r _ hr
    exact decide_eq_true (covers_of_expand (of_decide_eq_true hr))
  have hbefore : Covers (p :: ps) p := covers_cons.2 (.inl List.prefix_rfl)
  have hafter : ¬ Covers (expand p ns ++ ps) p := fun h =>
    not_prefix_of_covers_expand hapart h List.prefix_rfl
  rw [ahead, ahead, hperm.countP_eq, hperm.countP_eq,
    List.countP_cons_of_neg (by simpa using hafter), List.countP_cons_of_pos (by simpa using hbefore)]
  omega

/-- The places that keys have somewhere within their names. -/
def infixes (keys : List String) : List (List String) :=
  [] :: keys.flatMap fun k => (names k).tails.flatMap List.inits

theorem mem_infixes {keys : List String} :
    p ∈ infixes keys ↔ p = [] ∨ ∃ k ∈ keys, p <:+: names k := by
  simp only [infixes, List.mem_cons, List.mem_flatMap, List.mem_tails, List.mem_inits,
    List.infix_iff_prefix_suffix, and_comm]

theorem isName_of_mem_infixes {keys : List String} (h : p ∈ infixes keys) : ∀ n ∈ p, IsName n := by
  intro n hn
  rcases mem_infixes.1 h with rfl | ⟨k, -, hk⟩
  · cases hn
  · exact isName_of_mem_names (hk.subset hn)

/-- A place within another one of the keys is a place of the keys. -/
theorem mem_infixes_of_infix {keys : List String} (h : p ∈ infixes keys) (hq : q <:+: p) :
    q ∈ infixes keys := by
  rcases mem_infixes.1 h with rfl | ⟨k, hk, hpk⟩
  · rw [List.infix_nil.1 hq]
    exact h
  · exact mem_infixes.2 (.inr ⟨k, hk, hq.trans hpk⟩)

end Worklist

/-! ## Rounds -/

open Files Worklist

/-- The source and the target of a copy on one filesystem, as they lead into buckets. -/
structure Trees (f : Files) where
  fs : FileSystem
  source : Path
  target : Path
  sourceBucket : String
  sourceNames : List String
  targetBucket : String
  targetNames : List String
  fromSource : f.Locates source fs sourceBucket sourceNames
  toTarget : f.Locates target fs targetBucket targetNames

namespace Trees

/-- The trees of a copy that is allowed a number of rounds. -/
def ofLocates {f : Files} {fs : FileSystem} {source target : Path} {bucket bucket' : String}
    {ns ns' : List String} (hs : f.Locates source fs bucket ns)
    (ht : f.Locates target fs bucket' ns') (rounds : Nat) : Trees { f with rounds } :=
  ⟨fs, source, target, bucket, ns, bucket', ns',
    ⟨hs.opened, hs.path_eq, hs.bucket_ne, hs.isName⟩,
    ⟨ht.opened, ht.path_eq, ht.bucket_ne, ht.isName⟩⟩

variable {f : Files} (T : Trees f)

/-- The path of a place below the source. -/
def sourceAt (p : List String) : Path := ⟨T.fs.id, true, T.sourceBucket :: (T.sourceNames ++ p)⟩

/-- The path of a place below the target. -/
def targetAt (p : List String) : Path := ⟨T.fs.id, true, T.targetBucket :: (T.targetNames ++ p)⟩

/-- The pending entries for a list of places. -/
def work (ps : List (List String)) : List (Path × Path) :=
  ps.map fun p => (T.sourceAt p, T.targetAt p)

theorem work_start : T.work [[]] = [(T.source, T.target)] := by
  rw [T.fromSource.path_eq, T.toTarget.path_eq]
  simp only [work, sourceAt, targetAt, List.map_cons, List.map_nil, List.append_nil]

theorem work_nil : T.work [] = [] := rfl

theorem work_cons (p : List String) (ps : List (List String)) :
    T.work (p :: ps) = (T.sourceAt p, T.targetAt p) :: T.work ps := rfl

theorem locates_source {p : List String} (hp : ∀ n ∈ p, IsName n) :
    f.Locates (T.sourceAt p) T.fs T.sourceBucket (T.sourceNames ++ p) := T.fromSource.extend hp

theorem locates_target {p : List String} (hp : ∀ n ∈ p, IsName n) :
    f.Locates (T.targetAt p) T.fs T.targetBucket (T.targetNames ++ p) := T.toTarget.extend hp

/-- The entries that the children of a directory add to the work list. -/
theorem work_expand (p ns : List String) (ps : List (List String)) :
    ((ns.map fun n => T.sourceAt (p ++ [n])).filterMap fun child =>
        child.lastName?.map fun name => (child, (T.targetAt p).resolve name)).reverse ++ T.work ps =
      T.work (expand p ns ++ ps) := by
  have hentry : ∀ n, ((T.sourceAt (p ++ [n])).lastName?.map fun name =>
      (T.sourceAt (p ++ [n]), (T.targetAt p).resolve name)) =
        some (T.sourceAt (p ++ [n]), T.targetAt (p ++ [n])) := by
    intro n
    have hlast : (T.sourceBucket :: (T.sourceNames ++ (p ++ [n]))).getLast? = some n := by
      rw [← List.append_assoc, ← List.cons_append, List.getLast?_concat]
    simp [sourceAt, targetAt, Path.lastName?, Path.relative, Path.resolve, hlast]
  rw [List.filterMap_map, work, work, List.map_append, expand, List.map_reverse, List.map_map]
  congr 2
  rw [← List.filterMap_eq_map]
  exact congrArg (fun g => ns.filterMap g) (funext hentry)

/-- The names of the children of a place below the source, in a bucket. -/
def childrenOf (b : Bucket) (p : List String) : List String :=
  childNames b (insidePrefix (joined (T.sourceNames ++ p)))

theorem isName_append {p : List String} (hp : ∀ n ∈ p, IsName n) :
    ∀ n ∈ T.sourceNames ++ p, IsName n :=
  (T.locates_source hp).isName

theorem mem_childrenOf {b : Bucket} {p : List String} (hp : ∀ n ∈ p, IsName n) {n : String} :
    n ∈ T.childrenOf b p ↔ IsName n ∧
      (HasFile b (T.sourceNames ++ (p ++ [n])) ∨ HasDirectory b (T.sourceNames ++ (p ++ [n]))) := by
  rw [childrenOf, mem_childNames_iff, isChild_iff (T.isName_append hp), List.append_assoc]

theorem childrenOf_nodup (b : Bucket) (p : List String) : (T.childrenOf b p).Nodup :=
  childNames_nodup _ _

/-- **The children of a place** are listed, unless a page does not pass its check. -/
theorem collect_cases {s : Store} {b : Bucket} (file : LocalFile)
    (hb : s.bucket? T.sourceBucket = some b) {p : List String} (hp : ∀ n ∈ p, IsName n)
    {rounds : Nat} (hrounds : b.size < rounds) :
    ∃ stream, f.children (T.sourceAt p) = .ok stream ∧
      ((stream.collect rounds).run.run Store.handler (s, file) =
          (.ok ((T.childrenOf b p).map fun n => T.sourceAt (p ++ [n])), (s, file)) ∨
        ∃ fault, fault ≠ .unfinished ∧ (stream.collect rounds).run.run Store.handler (s, file) =
          (.error (.internal fault), (s, file))) := by
  obtain ⟨stream, hstream, hcases⟩ := (T.locates_source hp).collect_cases file hb
    (Nat.lt_of_le_of_lt (length_entriesAfter_le b none) hrounds)
  refine ⟨stream, hstream, ?_⟩
  rcases hcases with hrun | ⟨e, limit, hrun, -, m, -, hcheck⟩
  · refine .inl ?_
    rw [hrun]
    simp only [childrenOf, sourceAt, List.append_assoc]
  · have hfault : ∃ fault, fault ≠ .unfinished ∧ e = .internal fault := by
      unfold ListPage.check at hcheck
      split at hcheck
      · cases hcheck
        exact ⟨.truncatedWithoutToken _, nofun, rfl⟩
      · split at hcheck
        · cases hcheck
          exact ⟨.repeatedKey _, nofun, rfl⟩
        · cases hcheck
    obtain ⟨fault, hne, rfl⟩ := hfault
    exact .inr ⟨fault, hne, hrun⟩

/-- Without an empty key the children of a place are always listed. -/
theorem collect_run {s : Store} {b : Bucket} (file : LocalFile)
    (hb : s.bucket? T.sourceBucket = some b) (hkeys : "" ∉ b.keys) {p : List String}
    (hp : ∀ n ∈ p, IsName n) {rounds : Nat} (hrounds : b.size < rounds) :
    ∃ stream, f.children (T.sourceAt p) = .ok stream ∧
      (stream.collect rounds).run.run Store.handler (s, file) =
        (.ok ((T.childrenOf b p).map fun n => T.sourceAt (p ++ [n])), (s, file)) := by
  obtain ⟨stream, hstream, hrun⟩ := (T.locates_source hp).collect_run file hb hkeys
    (Nat.lt_of_le_of_lt (length_entriesAfter_le b none) hrounds)
  refine ⟨stream, hstream, ?_⟩
  rw [hrun]
  simp only [childrenOf, sourceAt, List.append_assoc]

end Trees

end BucketFs
