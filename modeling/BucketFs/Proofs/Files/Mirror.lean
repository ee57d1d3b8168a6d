import BucketFs.Proofs.Files.Fresh
import BucketFs.Proofs.Files.Walk

/-!
# Tree copies mirror the tree

Where the keys of the source bucket make a tree and nothing is at the target, a tree copy stores one
object for every place of the source: the content of a file, and the empty marker of a directory.

* `Bucket.IsTree` — keys of a bucket that are made of names, none of which is both a file and a
  directory.
* `Trees.round_run` — a round writes the object for its place and goes on to the places directly
  inside it.
* `Trees.copyPending_mirrors` — the rounds that are left write the objects for all places that the
  work list leads to.
* `Files.copyAll_mirrors` — so a tree copy mirrors the tree, and counts its files.
-/

namespace BucketFs

open BucketFs.Text BucketFs.Listing

/-! ## Buckets that are trees -/

/-- Whether a file or a directory is at some names. -/
def Bucket.Present (b : Bucket) (ns : List String) : Prop := HasFile b ns ∨ HasDirectory b ns

/-- Whether the keys of a bucket make a tree: each is made of names, with at most one separator
behind them, and below no object lie others. -/
structure Bucket.IsTree (b : Bucket) : Prop where
  canonical : ∀ k ∈ b.keys, ∃ ns : List String, ns ≠ [] ∧ (∀ n ∈ ns, IsName n) ∧
    (k = joined ns ∨ k = joined ns ++ slash)
  apart : ∀ k ∈ b.keys, endsInSeparator k = false →
    ∀ k' ∈ b.keys, hasPrefix (k ++ slash) k' = false

namespace Bucket

variable {b : Bucket} {ns rest : List String} {n k : String}

/-- What is further inside makes a directory. -/
theorem hasDirectory_of_longer (h : b.Present (ns ++ n :: rest)) : HasDirectory b ns := by
  by_cases hne : ns = []
  · exact .inl hne
  · refine .inr ?_
    have hjoined : hasPrefix (joined ns ++ slash) (joined (ns ++ n :: rest)) = true := by
      rw [joined_append hne (List.cons_ne_nil n rest)]
      exact hasPrefix_append _ _
    rcases h with hfile | hnil | ⟨k, hk, hpre⟩
    · exact ⟨_, hfile.stored, hjoined⟩
    · exact absurd hnil (by simp)
    · exact ⟨k, hk, hasPrefix_trans (hasPrefix_trans hjoined (hasPrefix_append _ _)) hpre⟩

/-- What is further inside a name makes the name present. -/
theorem present_of_longer (h : b.Present (ns ++ n :: rest)) : b.Present (ns ++ [n]) := by
  cases rest with
  | nil => exact h
  | cons m rest =>
    have hlonger : b.Present ((ns ++ [n]) ++ m :: rest) := by
      rwa [List.append_assoc, List.singleton_append]
    exact .inr (hasDirectory_of_longer hlonger)

/-- Where neither an object nor anything below it is stored, nothing is at any place. -/
theorem not_present_of_empty (hne : ns ≠ []) (hunstored : joined ns ∉ b.keys)
    (hempty : ∀ k ∈ b.keys, hasPrefix (joined ns ++ slash) k = false) (rest : List String) :
    ¬ b.Present (ns ++ rest) := by
  have hdirectory : ¬ HasDirectory b ns := by
    rintro (hnil | ⟨k, hk, hpre⟩)
    · exact hne hnil
    · rw [hempty k hk] at hpre
      cases hpre
  intro hpresent
  cases rest with
  | nil =>
    rw [List.append_nil] at hpresent
    exact hpresent.elim (fun hfile => hunstored hfile.stored) hdirectory
  | cons n rest => exact hdirectory (hasDirectory_of_longer hpresent)

namespace IsTree

variable (htree : b.IsTree)
include htree

theorem not_directory (hns : ∀ n ∈ ns, IsName n) (hfile : HasFile b ns) : ¬ HasDirectory b ns := by
  rintro (hnil | ⟨k, hk, hpre⟩)
  · exact hfile.named hnil
  · rw [htree.apart _ hfile.stored (endsInSeparator_joined hns) k hk] at hpre
    cases hpre

/-- A key without a separator at its end is that of a file. -/
theorem file_of_key (hk : k ∈ b.keys) (hend : endsInSeparator k = false) :
    k = joined (names k) ∧ HasFile b (names k) := by
  obtain ⟨ns, hne, hns, rfl | rfl⟩ := htree.canonical k hk
  · rw [names_joined hns]
    exact ⟨rfl, hne, hk⟩
  · rw [endsInSeparator_append_slash] at hend
    cases hend

theorem empty_not_mem : "" ∉ b.keys := by
  intro hk
  obtain ⟨ns, hne, hns, hempty | hempty⟩ := htree.canonical "" hk
  · exact hne ((joined_eq_empty_iff hns).1 hempty.symm)
  · have hlen := congrArg String.length hempty
    have hslash : slash.length = 1 := rfl
    rw [String.length_append, String.length_empty] at hlen
    omega

end IsTree

end Bucket

/-- Buckets that agree on the keys at and below some names have the same there. -/
theorem present_congr {s t : Store} {bucket : String} {b b' : Bucket}
    (hb : s.bucket? bucket = some b) (hb' : t.bucket? bucket = some b') {ns : List String}
    (hns : ∀ n ∈ ns, IsName n)
    (hagree : ∀ k, ns <+: names k → t.object? bucket k = s.object? bucket k) :
    (HasFile b' ns ↔ HasFile b ns) ∧ (HasDirectory b' ns ↔ HasDirectory b ns) := by
  have hkeys : ∀ k, ns <+: names k → (k ∈ b'.keys ↔ k ∈ b.keys) := by
    intro k hk
    rw [Store.mem_keys_iff hb', Store.mem_keys_iff hb, hagree k hk]
  have hfile : joined ns ∈ b'.keys ↔ joined ns ∈ b.keys := by
    apply hkeys
    rw [names_joined hns]
  constructor
  · exact ⟨fun h => ⟨h.named, hfile.1 h.stored⟩, fun h => ⟨h.named, hfile.2 h.stored⟩⟩
  · have hbelow : ∀ k, hasPrefix (joined ns ++ slash) k = true → (k ∈ b'.keys ↔ k ∈ b.keys) :=
      fun k hk => hkeys k (prefix_of_hasPrefix hns hk)
    constructor
    · rintro (hnil | ⟨k, hk, hpre⟩)
      · exact .inl hnil
      · exact .inr ⟨k, (hbelow k hpre).1 hk, hpre⟩
    · rintro (hnil | ⟨k, hk, hpre⟩)
      · exact .inl hnil
      · exact .inr ⟨k, (hbelow k hpre).2 hk, hpre⟩

/-! ## One round -/

open Files Worklist

namespace Trees

variable {f : Files} (T : Trees f) {s t t' : Store} {b : Bucket} {p r : List String}
  {ps : List (List String)} {options : CopyMode} (file : LocalFile)

/-- What a copy needs to mirror its source in a store: the source is a tree, neither tree is inside
the other one, and its files can be transferred. -/
structure Mirrorable (s : Store) (b : Bucket) (options : CopyMode) : Prop where
  bucket : s.bucket? T.sourceBucket = some b
  tree : b.IsTree
  named : T.targetNames ≠ []
  inside : T.targetBucket = T.sourceBucket → ¬ T.sourceNames <+: T.targetNames
  outside : T.targetBucket = T.sourceBucket → ¬ T.targetNames <+: T.sourceNames
  rounds : growth b < f.rounds
  fits : ∀ p d, (∀ n ∈ p, IsName n) → HasFile b (T.sourceNames ++ p) →
    s.content? T.sourceBucket (joined (T.sourceNames ++ p)) = some d →
    d.length < 2 ^ 63 ∧
      Transfer.partCount (options.transferOptions T.fs) d.length < PlannedPart.numberLimit

/-- The object that stands for a place of the source. -/
inductive CopyOf (s : Store) (b : Bucket) (p : List String) : (key : String) → (data : Bytes) → Prop
  | file {d : Bytes} (stored : HasFile b (T.sourceNames ++ p))
      (content : s.content? T.sourceBucket (joined (T.sourceNames ++ p)) = some d) :
      CopyOf s b p (joined (T.targetNames ++ p)) d
  | directory (below : HasDirectory b (T.sourceNames ++ p)) :
      CopyOf s b p (joined (T.targetNames ++ p) ++ slash) []

/-- What a round writes for its place, the names that it goes on to, and the files that it
counts. -/
inductive Round (s : Store) (b : Bucket) (p : List String) :
    (key : String) → (data : Bytes) → (inside : List String) → (files : Nat) → Prop
  | file {d : Bytes} (stored : HasFile b (T.sourceNames ++ p))
      (content : s.content? T.sourceBucket (joined (T.sourceNames ++ p)) = some d) :
      Round s b p (joined (T.targetNames ++ p)) d [] 1
  | directory {ns : List String} (below : HasDirectory b (T.sourceNames ++ p))
      (children : ∀ n, n ∈ ns ↔ IsName n ∧ b.Present (T.sourceNames ++ (p ++ [n]))) :
      Round s b p (joined (T.targetNames ++ p) ++ slash) [] ns 0

/-- The store between two rounds: the source is as it was at the start, and nothing is at the places
of the target that are still to come. -/
structure Ready (s : Store) (b : Bucket) (t : Store) (ps : List (List String)) : Prop where
  grown : T.Grown b t
  target : ∃ b', t.bucket? T.targetBucket = some b'
  source : ∀ k, T.sourceNames <+: names k →
    t.object? T.sourceBucket k = s.object? T.sourceBucket k
  fresh : ∀ r, (∀ n ∈ r, IsName n) → Covers ps r → ∀ k,
    k = joined (T.targetNames ++ r) ∨
      hasPrefix (joined (T.targetNames ++ r) ++ slash) k = true →
    t.object? T.targetBucket k = none

/-- Whether a round, with however many rounds left, writes the object for its place and goes on to
other places. -/
def RoundRuns (file : LocalFile) (options : CopyMode) (s : Store) (b : Bucket) (t : Store)
    (p : List String) (ps : List (List String)) : Prop :=
  ∃ key data acl ns files t', T.Round s b p key data ns files ∧ ns.Nodup ∧
    Store.Wrote t t' T.targetBucket key data acl ∧ T.Grown b t' ∧
    ∀ rounds count,
      (f.copyPending options (rounds + 1) (T.work (p :: ps)) count).run.run Store.handler
          (t, file) =
        (f.copyPending options rounds (T.work (expand p ns ++ ps)) (count + files)).run.run
          Store.handler (t', file)

variable {T}

section CopyOf

variable {key : String} {data : Bytes}

theorem Round.copyOf {ns : List String} {files : Nat} (h : T.Round s b p key data ns files) :
    T.CopyOf s b p key data := by
  cases h with
  | file stored content => exact .file stored content
  | directory below _ => exact .directory below

theorem CopyOf.names_eq (h : T.CopyOf s b p key data) (hp : ∀ n ∈ p, IsName n) :
    names key = T.targetNames ++ p := by
  have hnames := (T.locates_target hp).isName
  cases h with
  | file _ _ => exact names_joined hnames
  | directory _ => rw [names_append_slash, names_joined hnames]

/-- A place has one object. -/
theorem CopyOf.unique (htree : b.IsTree) (hp : ∀ n ∈ p, IsName n) {key' : String} {data' : Bytes}
    (h : T.CopyOf s b p key data) (h' : T.CopyOf s b p key' data') : key' = key ∧ data' = data := by
  have hapart := htree.not_directory (T.isName_append hp)
  cases h with
  | file stored content =>
    cases h' with
    | file _ content' =>
      rw [content] at content'
      exact ⟨rfl, (Option.some.inj content').symm⟩
    | directory below => exact absurd below (hapart stored)
  | directory below =>
    cases h' with
    | file stored _ => exact absurd below (hapart stored)
    | directory _ => exact ⟨rfl, rfl⟩

/-- The object for a place is not below the source. -/
theorem CopyOf.not_source (h : T.CopyOf s b p key data) (hp : ∀ n ∈ p, IsName n)
    (hm : T.Mirrorable s b options) (hbucket : T.targetBucket = T.sourceBucket) :
    ¬ T.sourceNames <+: names key := by
  have hapart : Apart T.sourceNames T.targetNames := ⟨hm.inside hbucket, hm.outside hbucket⟩
  rw [h.names_eq hp]
  exact hapart.not_prefix_append p

end CopyOf

section Ready

/-- A file of the source has the content that it had at the start. -/
theorem Ready.content (hready : T.Ready s b t ps) (hp : ∀ n ∈ p, IsName n) {b' : Bucket}
    (hb' : t.bucket? T.sourceBucket = some b') (hstored : HasFile b' (T.sourceNames ++ p)) :
    ∃ d, t.content? T.sourceBucket (joined (T.sourceNames ++ p)) = some d ∧
      s.content? T.sourceBucket (joined (T.sourceNames ++ p)) = some d := by
  obtain ⟨o, ho⟩ := (Store.mem_keys_iff hb').1 hstored.stored
  have hbelow : T.sourceNames <+: names (joined (T.sourceNames ++ p)) := by
    rw [names_joined (T.isName_append hp)]
    exact List.prefix_append _ _
  refine ⟨o.data, by rw [Store.content?, ho, Option.map_some], ?_⟩
  rw [Store.content?, ← hready.source _ hbelow, ho, Option.map_some]

variable (hm : T.Mirrorable s b options)
include hm

theorem Mirrorable.target_named (p : List String) : T.targetNames ++ p ≠ [] :=
  fun h => hm.named (List.append_eq_nil_iff.1 h).1

/-- Nothing is at a place that is still to come. -/
theorem Ready.nothing (hready : T.Ready s b t ps) (hr : ∀ n ∈ r, IsName n) (hcovers : Covers ps r)
    {b' : Bucket} (hb' : t.bucket? T.targetBucket = some b') :
    ¬ HasFile b' (T.targetNames ++ r) ∧ ¬ HasDirectory b' (T.targetNames ++ r) := by
  have hkeys : ∀ k, k ∈ b'.keys → t.object? T.targetBucket k ≠ none := by
    intro k hk hnone
    obtain ⟨o, ho⟩ := (Store.mem_keys_iff hb').1 hk
    rw [ho] at hnone
    cases hnone
  constructor
  · intro hfile
    exact hkeys _ hfile.stored (hready.fresh r hr hcovers _ (.inl rfl))
  · rintro (hnil | ⟨k, hk, hpre⟩)
    · exact hm.target_named r hnil
    · exact hkeys k hk (hready.fresh r hr hcovers k (.inr hpre))

/-- During a copy, the source has what it had at the start. -/
theorem Mirrorable.present_iff (hsource : ∀ k, T.sourceNames <+: names k →
      t.object? T.sourceBucket k = s.object? T.sourceBucket k) (hp : ∀ n ∈ p, IsName n)
    {b' : Bucket} (hb' : t.bucket? T.sourceBucket = some b') :
    (HasFile b' (T.sourceNames ++ p) ↔ HasFile b (T.sourceNames ++ p)) ∧
      (HasDirectory b' (T.sourceNames ++ p) ↔ HasDirectory b (T.sourceNames ++ p)) :=
  present_congr hm.bucket hb' (T.isName_append hp)
    fun k hk => hsource k ((List.prefix_append _ _).trans hk)

/-- Writing the object for a place leaves the source alone. -/
theorem Mirrorable.source_stays {key : String} {data : Bytes} {acl : Acl}
    (hready : T.Ready s b t ps) (hp : ∀ n ∈ p, IsName n) (hcopy : T.CopyOf s b p key data)
    (hwrote : Store.Wrote t t' T.targetBucket key data acl) :
    ∀ k, T.sourceNames <+: names k →
      t'.object? T.sourceBucket k = s.object? T.sourceBucket k := by
  intro k hk
  rw [hwrote.others, hready.source k hk]
  rintro ⟨hbucket, rfl⟩
  exact hcopy.not_source hp hm hbucket.symm hk

/-- **Between two rounds** all is ready for the places that are left. -/
theorem Ready.next {key : String} {data : Bytes} {acl : Acl} {ns : List String}
    (hready : T.Ready s b t (p :: ps)) (hp : ∀ n ∈ p, IsName n) (hapart : (p :: ps).Pairwise Apart)
    (hcopy : T.CopyOf s b p key data) (hgrown : T.Grown b t')
    (hwrote : Store.Wrote t t' T.targetBucket key data acl) :
    T.Ready s b t' (expand p ns ++ ps) := by
  refine ⟨hgrown, hwrote.bucket_exists, hm.source_stays hready hp hcopy hwrote,
    fun r hr hcovers k hk => ?_⟩
  rw [hwrote.others, hready.fresh r hr (covers_of_expand hcovers) k hk]
  rintro ⟨-, rfl⟩
  -- the object that was written is neither at a place that is left nor inside one
  have hpre : T.targetNames ++ r <+: names k := by
    have hnames := (T.locates_target hr).isName
    rcases hk with rfl | hk
    · rw [names_joined hnames]
    · exact prefix_of_hasPrefix hnames hk
  rw [hcopy.names_eq hp, List.prefix_append_right_inj] at hpre
  exact not_prefix_of_covers_expand hapart hcovers hpre

theorem Mirrorable.empty_not_mem {b' : Bucket}
    (hkeys : ∀ k ∈ b'.keys, k ∈ b.keys ∨ T.Written b k) : "" ∉ b'.keys := by
  intro hk
  rcases hkeys "" hk with hk | hwritten
  · exact hm.tree.empty_not_mem hk
  · obtain ⟨-, r, -, hnames⟩ := T.names_of_written hwritten
    exact hm.target_named r hnames.symm

/-- The children of a place are those that it had at the start. -/
theorem Mirrorable.mem_childrenOf (hsource : ∀ k, T.sourceNames <+: names k →
      t.object? T.sourceBucket k = s.object? T.sourceBucket k) (hp : ∀ n ∈ p, IsName n)
    {b' : Bucket} (hb' : t.bucket? T.sourceBucket = some b') {n : String} :
    n ∈ T.childrenOf b' p ↔ IsName n ∧ b.Present (T.sourceNames ++ (p ++ [n])) := by
  rw [T.mem_childrenOf hp]
  refine and_congr_right fun hn => ?_
  obtain ⟨hfile, hdirectory⟩ := hm.present_iff hsource (isName_concat hp hn) hb'
  rw [hfile, hdirectory, Bucket.Present]

/-- The round for a file copies it. -/
theorem round_file (hready : T.Ready s b t (p :: ps)) (hp : p ∈ infixes b.keys) {b₁ : Bucket}
    (hb₁ : t.bucket? T.sourceBucket = some b₁) (hstored : HasFile b₁ (T.sourceNames ++ p))
    {found : FileStatus} (isFile : found.isDirectory = false)
    (hrun : (f.status (T.sourceAt p)).run.run Store.handler (t, file) = (.ok found, (t, file))) :
    T.RoundRuns file options s b t p ps := by
  have hnames := isName_of_mem_infixes hp
  have hsource := T.locates_source hnames
  have htarget := T.locates_target hnames
  obtain ⟨b', hb'⟩ := hready.target
  obtain ⟨hfile, hdirectory⟩ := hready.nothing hm hnames (covers_cons.2 (.inl List.prefix_rfl)) hb'
  have hstart := (hm.present_iff hready.source hnames hb₁).1.1 hstored
  obtain ⟨d, hd, hcontent⟩ := hready.content hnames hb₁ hstored
  obtain ⟨hbound, hcount⟩ := hm.fits p d hnames hstart hcontent
  obtain ⟨t', hcopy, hwrote⟩ := htarget.copy_fresh file (hm.target_named p) hb' hfile hdirectory
    hsource hb₁ hstored hd options hbound hcount
  have hgrown := hready.grown.keeps (s := (t, file)) T hp
    (copy_within Store.handler_serves (T.sourceAt p) htarget options (t, file))
  rw [hcopy] at hgrown
  refine ⟨_, d, _, [], 1, t', .file hstart hcontent, List.nodup_nil, hwrote, hgrown, ?_⟩
  intro rounds count
  rw [work_cons, copyPending, Action.run_bind_ok hrun]
  simp only [isFile, Bool.not_false, if_true]
  rw [Action.run_bind_ok hcopy]
  rfl

/-- The round for a directory creates it and lists what is inside. -/
theorem round_directory (hready : T.Ready s b t (p :: ps)) (hp : p ∈ infixes b.keys)
    (hbelow : HasDirectory b (T.sourceNames ++ p)) {found : FileStatus}
    (isDirectory : found.isDirectory = true)
    (hrun : (f.status (T.sourceAt p)).run.run Store.handler (t, file) = (.ok found, (t, file))) :
    T.RoundRuns file options s b t p ps := by
  have hnames := isName_of_mem_infixes hp
  have htarget := T.locates_target hnames
  obtain ⟨b', hb'⟩ := hready.target
  obtain ⟨hfile, hdirectory⟩ := hready.nothing hm hnames (covers_cons.2 (.inl List.prefix_rfl)) hb'
  have hexists := htarget.exists_fresh file hb' hfile hdirectory
  obtain ⟨t', hmake, hwrote⟩ := htarget.makeDirectory_fresh file (hm.target_named p) hb' hfile
    hdirectory
  have hgrown := hready.grown.keeps (s := (t, file)) T hp (makeDirectory_within htarget (t, file))
  rw [hmake] at hgrown
  -- the listing comes after the marker is written
  obtain ⟨b₁, hb₁, hkeys⟩ := hgrown
  have hsource := hm.source_stays hready hnames (.directory hbelow) hwrote
  obtain ⟨stream, hstream, hcollect⟩ := T.collect_run file hb₁ (hm.empty_not_mem hkeys) hnames
    (Nat.lt_of_le_of_lt (T.size_le hkeys) hm.rounds)
  refine ⟨_, [], _, T.childrenOf b₁ p, 0, t',
    .directory hbelow fun n => hm.mem_childrenOf hsource hnames hb₁, T.childrenOf_nodup b₁ p,
    hwrote, ⟨b₁, hb₁, hkeys⟩, fun rounds count => ?_⟩
  rw [work_cons, copyPending, Action.run_bind_ok hrun]
  simp only [isDirectory, Bool.not_true, Bool.false_eq_true, if_false]
  rw [Action.run_bind_ok hexists]
  simp only [Bool.not_false, if_true]
  rw [Action.run_bind_ok hmake, hstream, Action.ofResult_ok_bind, Action.run_bind_ok hcollect,
    T.work_expand]
  rfl

/-- **A round** writes the object for its place and goes on to the places directly inside it. -/
theorem round_run (hready : T.Ready s b t (p :: ps)) (hp : p ∈ infixes b.keys)
    (hpresent : b.Present (T.sourceNames ++ p)) : T.RoundRuns file options s b t p ps := by
  have hnames := isName_of_mem_infixes hp
  obtain ⟨b₁, hb₁, -⟩ := hready.grown
  obtain ⟨hfile, hdirectory⟩ := hm.present_iff hready.source hnames hb₁
  obtain ⟨r, hrun, hstatus⟩ := (T.locates_source hnames).status_run file hb₁
  cases hstatus with
  | file stored isFile => exact round_file file hm hready hp hb₁ stored isFile hrun
  | directory unstored below isDirectory =>
    exact round_directory file hm hready hp (hdirectory.1 below) isDirectory hrun
  | nothing unstored empty _ =>
    rcases hpresent with hstored | hbelow
    · exact absurd (hfile.2 hstored) unstored
    · exact absurd (hdirectory.2 hbelow) empty

/-- A round goes on to what is there. -/
theorem Round.inside_present {key : String} {data : Bytes} {ns : List String} {files : Nat}
    (hround : T.Round s b p key data ns files) (hp : p ∈ infixes b.keys) {n : String}
    (hn : n ∈ ns) :
    p ++ [n] ∈ infixes b.keys ∧ b.Present (T.sourceNames ++ (p ++ [n])) := by
  cases hround with
  | file _ _ => cases hn
  | directory below children =>
    have hchild := (children n).1 hn
    have hlisted := (T.mem_childrenOf (isName_of_mem_infixes hp)).2 hchild
    exact ⟨T.next_mem hm.inside (fun k hk => .inl hk) hp hlisted, hchild.2⟩

/-- **What a round leaves to do**: all places that the work list led to, but its own. -/
theorem Round.rest_cases {key : String} {data : Bytes} {ns : List String} {files : Nat}
    (hround : T.Round s b p key data ns files) (hp : ∀ n ∈ p, IsName n) (hr : ∀ n ∈ r, IsName n)
    (hpresent : b.Present (T.sourceNames ++ r)) (hcovers : Covers (p :: ps) r) :
    r = p ∨ Covers (expand p ns ++ ps) r := by
  rcases covers_cons.1 hcovers with ⟨rest, rfl⟩ | hcovers
  · cases rest with
    | nil => exact .inl (List.append_nil p)
    | cons n rest =>
      rw [← List.append_assoc] at hpresent
      cases hround with
      | file stored _ =>
        have hbelow := Bucket.hasDirectory_of_longer hpresent
        exact absurd hbelow (hm.tree.not_directory (T.isName_append hp) stored)
      | directory below children =>
        have hchild := Bucket.present_of_longer hpresent
        rw [List.append_assoc] at hchild
        have hname := hr n (List.mem_append_right _ List.mem_cons_self)
        refine .inr (covers_expand.2 (.inl ⟨n, (children n).2 ⟨hname, hchild⟩, rest, ?_⟩))
        rw [List.append_assoc, List.singleton_append]
  · exact .inr (covers_expand.2 (.inr hcovers))

end Ready

/-! ## The number of files -/

/-- Whether a key is that of a file at a place that a work list leads to. -/
def FileAhead (T : Trees f) (ps : List (List String)) (k : String) : Prop :=
  endsInSeparator k = false ∧ T.sourceNames <+: names k ∧
    Covers ps ((names k).drop T.sourceNames.length)

instance (ps : List (List String)) (k : String) : Decidable (T.FileAhead ps k) :=
  inferInstanceAs (Decidable (_ ∧ _ ∧ _))

/-- The number of files at the places that a work list leads to. -/
def filesAhead (T : Trees f) (b : Bucket) (ps : List (List String)) : Nat :=
  b.keys.countP fun k => T.FileAhead ps k

theorem filesAhead_nil : T.filesAhead b [] = 0 := by
  rw [filesAhead, List.countP_eq_zero]
  intro k _ hk
  exact not_covers_nil (of_decide_eq_true hk).2.2

/-- A work list leads to the file at a place if it leads to the place. -/
theorem fileAhead_joined (hp : ∀ n ∈ p, IsName n) :
    T.FileAhead ps (joined (T.sourceNames ++ p)) ↔ Covers ps p := by
  have hnames := T.isName_append hp
  rw [FileAhead, names_joined hnames, List.drop_left]
  exact ⟨fun h => h.2.2, fun h => ⟨endsInSeparator_joined hnames, List.prefix_append _ _, h⟩⟩

section FilesAhead

variable (hm : T.Mirrorable s b options) {key : String} {data : Bytes} {ns : List String}
  {files : Nat} (hround : T.Round s b p key data ns files) (hp : ∀ n ∈ p, IsName n)
include hm hround hp

/-- A round leaves the files that are not at its place. -/
theorem Round.fileAhead_iff {k : String} (hk : k ∈ b.keys) (hne : names k ≠ T.sourceNames ++ p) :
    T.FileAhead (p :: ps) k ↔ T.FileAhead (expand p ns ++ ps) k := by
  refine and_congr_right fun hend => and_congr_right fun hsource => ?_
  obtain ⟨r, hr⟩ := hsource
  have hfile := (hm.tree.file_of_key hk hend).2
  rw [← hr] at hfile hne ⊢
  rw [List.drop_left]
  constructor
  · intro hcovers
    have hnames : ∀ n ∈ r, IsName n := fun n hn =>
      isName_of_mem_names (hr ▸ List.mem_append_right _ hn)
    rcases hround.rest_cases hm hp hnames (.inl hfile) hcovers with rfl | hcovers
    · exact absurd rfl hne
    · exact hcovers
  · exact covers_of_expand

/-- **A round counts the file at its place**, and leaves the others. -/
theorem Round.filesAhead_eq (hapart : (p :: ps).Pairwise Apart) :
    T.filesAhead b (p :: ps) = T.filesAhead b (expand p ns ++ ps) + files := by
  have hothers : ∀ {k}, k ∈ b.keys → names k ≠ T.sourceNames ++ p →
      (T.FileAhead (p :: ps) k ↔ T.FileAhead (expand p ns ++ ps) k) := hround.fileAhead_iff hm hp
  have hnames := T.isName_append hp
  cases hround with
  | directory below _ =>
    apply List.countP_congr
    intro k hk
    rw [decide_eq_true_iff, decide_eq_true_iff]
    by_cases hplace : names k = T.sourceNames ++ p
    · have hnone : ∀ ps', ¬ T.FileAhead ps' k := by
        rintro ps' ⟨hend, -⟩
        have hfile := (hm.tree.file_of_key hk hend).2
        rw [hplace] at hfile
        exact hm.tree.not_directory hnames hfile below
      exact iff_of_false (hnone _) (hnone _)
    · exact hothers hk hplace
  | file stored _ =>
    have hperm := List.perm_cons_erase stored.stored
    have hbefore : T.FileAhead (p :: ps) (joined (T.sourceNames ++ p)) :=
      (fileAhead_joined hp).2 (covers_cons.2 (.inl List.prefix_rfl))
    have hafter : ¬ T.FileAhead (expand p [] ++ ps) (joined (T.sourceNames ++ p)) := by
      rw [fileAhead_joined hp]
      exact fun hcovers => not_prefix_of_covers_expand hapart hcovers List.prefix_rfl
    have hrest : (b.keys.erase (joined (T.sourceNames ++ p))).countP
          (fun k => decide (T.FileAhead (p :: ps) k)) =
        (b.keys.erase (joined (T.sourceNames ++ p))).countP
          fun k => decide (T.FileAhead (expand p [] ++ ps) k) := by
      apply List.countP_congr
      intro k hk
      rw [decide_eq_true_iff, decide_eq_true_iff]
      rw [b.keys_nodup.mem_erase_iff] at hk
      by_cases hend : endsInSeparator k = false
      · refine hothers hk.2 fun heq => hk.1 ?_
        rw [(hm.tree.file_of_key hk.2 hend).1, heq]
      · exact iff_of_false (fun h => hend h.1) fun h => hend h.1
    rw [filesAhead, filesAhead, hperm.countP_eq, hperm.countP_eq,
      List.countP_cons_of_pos (by simpa using hbefore),
      List.countP_cons_of_neg (by simpa using hafter), hrest]

end FilesAhead

/-! ## All rounds -/

/-- What the rounds for a work list do to a store: the objects for all places that the list leads to
are there, and every other object is as before. -/
structure Mirrors (T : Trees f) (s : Store) (b : Bucket) (ps : List (List String)) (t t' : Store) :
    Prop where
  copies : ∀ r, (∀ n ∈ r, IsName n) → Covers ps r → ∀ key data, T.CopyOf s b r key data →
    t'.content? T.targetBucket key = some data
  others : ∀ bucket key,
    (∀ r, (∀ n ∈ r, IsName n) → Covers ps r → ∀ data, bucket = T.targetBucket →
      ¬ T.CopyOf s b r key data) →
    t'.object? bucket key = t.object? bucket key

/-- A round and the rounds that are left together. -/
theorem Mirrors.cons (hm : T.Mirrorable s b options) {t₁ : Store} {key : String} {data : Bytes}
    {acl : Acl} {ns : List String} {files : Nat} (hround : T.Round s b p key data ns files)
    (hp : ∀ n ∈ p, IsName n) (hapart : (p :: ps).Pairwise Apart)
    (hwrote : Store.Wrote t t₁ T.targetBucket key data acl)
    (hrest : T.Mirrors s b (expand p ns ++ ps) t₁ t') : T.Mirrors s b (p :: ps) t t' := by
  constructor
  · intro r hr hcovers key' data' hcopy
    have hpresent : b.Present (T.sourceNames ++ r) := by
      cases hcopy with
      | file stored _ => exact .inl stored
      | directory below => exact .inr below
    rcases hround.rest_cases hm hp hr hpresent hcovers with rfl | hcovers
    · obtain ⟨rfl, rfl⟩ := hround.copyOf.unique hm.tree hp hcopy
      -- no other place has this object
      have hkept : t'.object? T.targetBucket key' = t₁.object? T.targetBucket key' := by
        apply hrest.others
        intro r' hr' hcovers' data'' _ hcopy'
        have hnames := hcopy'.names_eq hr'
        rw [hcopy.names_eq hp, List.append_cancel_left_eq] at hnames
        refine not_prefix_of_covers_expand hapart hcovers' ?_
        rw [hnames]
      rw [Store.content?, hkept, ← Store.content?, hwrote.content]
    · exact hrest.copies r hr hcovers key' data' hcopy
  · intro bucket key' hnone
    rw [hrest.others bucket key' fun r hr hcovers => hnone r hr (covers_of_expand hcovers)]
    apply hwrote.others
    rintro ⟨rfl, rfl⟩
    exact hnone p hp (covers_cons.2 (.inl List.prefix_rfl)) data rfl hround.copyOf

/-- **The rounds that are left** write the objects for all places that the work list leads to, and
count the files among them. -/
theorem copyPending_mirrors (hm : T.Mirrorable s b options) (rounds : Nat) :
    ∀ (ps : List (List String)) (count : Nat) (t : Store), T.Ready s b t ps →
      (∀ p ∈ ps, p ∈ infixes b.keys ∧ b.Present (T.sourceNames ++ p)) → ps.Pairwise Apart →
      ahead (infixes b.keys) ps ≤ rounds →
      ∃ t', (f.copyPending options rounds (T.work ps) count).run.run Store.handler (t, file) =
          (.ok (count + T.filesAhead b ps), (t', file)) ∧ T.Mirrors s b ps t t' := by
  have hdone : ∀ rounds count t, ∃ t', (f.copyPending options rounds (T.work []) count).run.run
      Store.handler (t, file) = (.ok (count + T.filesAhead b []), (t', file)) ∧
        T.Mirrors s b [] t t' := by
    intro rounds count t
    refine ⟨t, ?_, fun r _ hcovers => absurd hcovers not_covers_nil, fun _ _ _ => rfl⟩
    rw [work_nil, copyPending, filesAhead_nil]
    rfl
  induction rounds with
  | zero =>
    intro ps count t hready hps hapart hahead
    cases ps with
    | nil => exact hdone 0 count t
    | cons p ps =>
      have hlt := ahead_expand_lt hapart (hps p List.mem_cons_self).1 []
      omega
  | succ rounds ih =>
    intro ps count t hready hps hapart hahead
    cases ps with
    | nil => exact hdone (rounds + 1) count t
    | cons p ps =>
      obtain ⟨hp, hpresent⟩ := hps p List.mem_cons_self
      have hnames := isName_of_mem_infixes hp
      obtain ⟨key, data, acl, ns, files, t₁, hround, hnodup, hwrote, hgrown, hrun⟩ :=
        round_run file hm hready hp hpresent
      have hlt := ahead_expand_lt hapart hp ns
      have hrest : ∀ q ∈ expand p ns ++ ps,
          q ∈ infixes b.keys ∧ b.Present (T.sourceNames ++ q) := by
        intro q hq
        rcases List.mem_append.1 hq with hq | hq
        · obtain ⟨n, hn, rfl⟩ := mem_expand.1 hq
          exact hround.inside_present hm hp hn
        · exact hps q (List.mem_cons_of_mem _ hq)
      obtain ⟨t', hleft, hmirrors⟩ := ih (expand p ns ++ ps) (count + files) t₁
        (hready.next hm hnames hapart hround.copyOf hgrown hwrote) hrest
        (apart_expand hapart hnodup) (by omega)
      refine ⟨t', ?_, hmirrors.cons hm hround hnames hapart hwrote⟩
      rw [hrun, hleft, hround.filesAhead_eq hm hnames hapart, Nat.add_assoc,
        Nat.add_comm files]

section Start

variable {b' : Bucket} (hb' : s.bucket? T.targetBucket = some b')
  (hfresh : ∀ r, ¬ b'.Present (T.targetNames ++ r))
include hb' hfresh

/-- A source that is there is not inside a target that is not. -/
theorem outside_of_fresh (hb : s.bucket? T.sourceBucket = some b)
    (hpresent : b.Present T.sourceNames) (hsame : T.targetBucket = T.sourceBucket) :
    ¬ T.targetNames <+: T.sourceNames := by
  rintro ⟨rest, hrest⟩
  rw [hsame, hb] at hb'
  obtain rfl := Option.some.inj hb'
  exact hfresh rest (hrest ▸ hpresent)

/-- With nothing at the target, all is ready at the start. -/
theorem Mirrorable.ready_start (hm : T.Mirrorable s b options) : T.Ready s b s [[]] := by
  refine ⟨⟨b, hm.bucket, fun k hk => .inl hk⟩, ⟨b', hb'⟩, fun _ _ => rfl, fun r hr _ k hk => ?_⟩
  rw [Option.eq_none_iff_forall_not_mem]
  intro o ho
  have hstored : k ∈ b'.keys := (Store.mem_keys_iff hb').2 ⟨o, ho⟩
  apply hfresh r
  rcases hk with rfl | hpre
  · exact .inl ⟨hm.target_named r, hstored⟩
  · exact .inr (.inr ⟨k, hstored, hpre⟩)

/-- **All rounds of a copy** write the objects for all places of the source. -/
theorem Mirrorable.mirrors_all (hm : T.Mirrorable s b options) (hpresent : b.Present T.sourceNames)
    {rounds : Nat} (hrounds : (infixes b.keys).length ≤ rounds) :
    ∃ t, (f.copyPending options rounds [(T.source, T.target)] 0).run.run Store.handler (s, file) =
        (.ok (T.filesAhead b [[]]), (t, file)) ∧ T.Mirrors s b [[]] s t := by
  have hplaces : ∀ p ∈ [([] : List String)],
      p ∈ infixes b.keys ∧ b.Present (T.sourceNames ++ p) := by
    intro p hp
    rw [List.mem_singleton.1 hp, List.append_nil]
    exact ⟨mem_infixes.2 (.inl rfl), hpresent⟩
  have hahead : ahead (infixes b.keys) [[]] ≤ rounds :=
    Nat.le_trans List.countP_le_length hrounds
  obtain ⟨t, hrun, hmirrors⟩ := copyPending_mirrors file hm rounds [[]] 0 s
    (hm.ready_start hb' hfresh) hplaces (List.pairwise_singleton _ _) hahead
  rw [Nat.zero_add, T.work_start] at hrun
  exact ⟨t, hrun, hmirrors⟩

end Start

end Trees

/-! ## The whole tree -/

namespace Files

variable {f : Files} {source target : Path} {fs : FileSystem} {bucket bucket' : String}
  {b b' : Bucket} {ns ns' : List String}

/-- The keys of the files of the tree at a path. -/
def treeFiles (b : Bucket) (p : Path) : List String :=
  b.keys.filter fun k => endsInSeparator k = false ∧
    (k = p.key ∨ hasPrefix (insidePrefix p.key) k = true)

/-- The keys at and below some names, where every key is made of names. -/
theorem prefix_names_iff {k : String} (hns : ∀ n ∈ ns, IsName n) (hk : k = joined (names k)) :
    ns <+: names k ↔ k = joined ns ∨ hasPrefix (insidePrefix (joined ns)) k = true := by
  constructor
  · rintro ⟨rest, hrest⟩
    rw [hk, ← hrest]
    by_cases hnil : rest = []
    · rw [hnil, List.append_nil]
      exact .inl rfl
    · refine .inr ?_
      by_cases hne : ns = []
      · rw [hne, joined_nil, insidePrefix_empty, hasPrefix_iff]
        exact List.nil_prefix
      · rw [insidePrefix_joined hns hne, joined_append hne hnil]
        exact hasPrefix_append _ _
  · rintro (heq | hinside)
    · rw [heq, names_joined hns]
    · exact prefix_of_inside hns hinside

theorem mem_treeFiles {p : List String} (hs : f.Locates source fs bucket ns)
    (hp : ∀ n ∈ p, IsName n) (hstored : HasFile b (ns ++ p)) :
    joined (ns ++ p) ∈ treeFiles b source := by
  have hjoined := (hs.extend hp).isName
  refine List.mem_filter.2 ⟨hstored.stored, decide_eq_true ⟨endsInSeparator_joined hjoined, ?_⟩⟩
  rw [hs.key_eq, ← prefix_names_iff hs.isName (by rw [names_joined hjoined]), names_joined hjoined]
  exact List.prefix_append _ _

/-- All files of the source are ahead of a copy that starts. -/
theorem filesAhead_start (T : Trees f) (htree : b.IsTree) :
    T.filesAhead b [[]] = (treeFiles b T.source).length := by
  rw [Trees.filesAhead, treeFiles, ← List.countP_eq_length_filter]
  apply List.countP_congr
  intro k hk
  rw [decide_eq_true_iff, decide_eq_true_iff, T.fromSource.key_eq]
  refine and_congr_right fun hend => ?_
  rw [← prefix_names_iff T.fromSource.isName (htree.file_of_key hk hend).1]
  exact and_iff_left (covers_start _)

/-- **A tree copy mirrors the tree**, once enough rounds are allowed: it counts the files of the
source, stores the content of each and an empty marker for each directory, and changes nothing
else. -/
theorem copyAll_mirrors (f : Files) (s : Store) (file : LocalFile) (hsource : source.Proper)
    (htarget : target.Proper) (hopen : f.openFileSystem source = .ok fs)
    (hopen' : f.openFileSystem target = .ok fs)
    (hplain : ∀ n ∈ source.segments, n ≠ Path.selfName ∧ n ≠ Path.upName)
    (hplain' : ∀ n ∈ target.segments, n ≠ Path.selfName ∧ n ≠ Path.upName)
    (hbucket : source.bucket? = some bucket) (hbucket' : target.bucket? = some bucket')
    (hb : s.bucket? bucket = some b) (hb' : s.bucket? bucket' = some b') (htree : b.IsTree)
    (hexists : ((f.exists? source).run.run Store.handler (s, file)).1 = .ok true)
    (hkey : target.key ≠ "") (hunstored : target.key ∉ b'.keys)
    (hempty : ∀ k ∈ b'.keys, hasPrefix (target.key ++ slash) k = false)
    (hguard : target.startsWith source = false) (options : CopyMode)
    (hfits : ∀ k ∈ treeFiles b source, ∀ data, s.content? bucket k = some data →
      data.length < 2 ^ 63 ∧
        Transfer.partCount (options.transferOptions fs) data.length < PlannedPart.numberLimit) :
    ∃ bound, ∀ rounds, bound ≤ rounds → ∃ t,
      (({ f with rounds }).copyAll source target options).run.run Store.handler (s, file) =
        (.ok (treeFiles b source).length, (t, file)) ∧
      (∀ r data, (∀ n ∈ r, IsName n) →
        s.content? bucket (joined (source.keyNames ++ r)) = some data →
        t.content? bucket' (joined (target.keyNames ++ r)) = some data) ∧
      (∀ r, (∀ n ∈ r, IsName n) → HasDirectory b (source.keyNames ++ r) →
        t.content? bucket' (joined (target.keyNames ++ r) ++ slash) = some []) ∧
      ∀ bucket'' key, ¬ (bucket'' = bucket' ∧ ∃ r, (∀ n ∈ r, IsName n) ∧
          (HasFile b (source.keyNames ++ r) ∧ key = joined (target.keyNames ++ r) ∨
            HasDirectory b (source.keyNames ++ r) ∧
              key = joined (target.keyNames ++ r) ++ slash)) →
        t.object? bucket'' key = s.object? bucket'' key := by
  have hs := Locates.of_proper hsource hopen hbucket
  have ht := Locates.of_proper htarget hopen' hbucket'
  generalize source.keyNames = ns at hs ⊢
  generalize target.keyNames = ns' at ht ⊢
  have hnamed : ns' ≠ [] := by
    rw [ht.key_eq] at hkey
    exact fun hnil => hkey (ht.key_eq_empty_iff.2 hnil)
  have hpresent : b.Present ns := by
    obtain ⟨found, hrun, hfound⟩ := hs.exists_run file hb
    rw [hrun] at hexists
    exact hfound.1 (Except.ok.inj hexists)
  have hfresh : ∀ r, ¬ b'.Present (ns' ++ r) := by
    rw [ht.key_eq] at hunstored hempty
    exact Bucket.not_present_of_empty hnamed hunstored hempty
  refine ⟨max (Trees.growth b + 1) (infixes b.keys).length, fun rounds hrounds => ?_⟩
  let T := Trees.ofLocates hs ht rounds
  have hm : T.Mirrorable s b options :=
    { bucket := hb
      tree := htree
      named := hnamed
      inside := (not_startsWith_iff hs ht).1 hguard
      outside := Trees.outside_of_fresh hb' hfresh hb hpresent
      rounds := Nat.le_trans (Nat.le_max_left _ _) hrounds
      fits := fun p d hp hstored hcontent => hfits _ (mem_treeFiles hs hp hstored) d hcontent }
  obtain ⟨t, hrun, hmirrors⟩ := hm.mirrors_all file hb' hfresh hpresent
    (Nat.le_trans (Nat.le_max_right _ _) hrounds)
  refine ⟨t, ?_, fun r data hr hdata => ?_, fun r hr hbelow => ?_, fun bucket'' key hnone => ?_⟩
  · have hnormal : ¬ target.normalize.startsWith source.normalize = true := by
      rw [Path.normalize_of_plain hplain, Path.normalize_of_plain hplain', hguard]
      exact Bool.false_ne_true
    rw [filesAhead_start T htree] at hrun
    rw [copyAll, if_neg hnormal]
    exact hrun
  · have hstored : joined (ns ++ r) ∈ b.keys := by
      obtain ⟨o, ho, -⟩ := Option.map_eq_some_iff.1 hdata
      exact (Store.mem_keys_iff hb).2 ⟨o, ho⟩
    have hnonempty : ns ++ r ≠ [] := by
      intro hnil
      rw [hnil, joined_nil] at hstored
      exact htree.empty_not_mem hstored
    exact hmirrors.copies r hr (covers_start r) _ _ (.file ⟨hnonempty, hstored⟩ hdata)
  · exact hmirrors.copies r hr (covers_start r) _ _ (.directory hbelow)
  · apply hmirrors.others
    intro r hr _ data hbucket'' hcopy
    apply hnone
    cases hcopy with
    | file stored _ => exact ⟨hbucket'', r, hr, .inl ⟨stored, rfl⟩⟩
    | directory below => exact ⟨hbucket'', r, hr, .inr ⟨below, rfl⟩⟩

/-- A directory with a file further inside and an empty directory, on pages of one entry, whose
files are sent byte by byte. -/
theorem copyAll_mirrors_nested :
    let fs : FileSystem := ⟨0, ⟨"", ""⟩, {}, ⟨0, 0⟩, true⟩
    let f : Files := { fileSystems := [fs], rounds := 0 }
    let source : Path := ⟨0, true, ["b", "d"]⟩
    let target : Path := ⟨0, true, ["b", "t"]⟩
    let options : CopyMode := { chunkSize := some 1 }
    let b : Bucket := ((KeyMap.empty : Bucket).insert "d/e/x" ⟨[1, 2, 3], "", .epoch, .byDefault⟩).insert
      "d/m/" ⟨[], "", .epoch, .byDefault⟩
    let s : Store := (Store.new 1 .epoch).setBucket "b" b
    b.IsTree ∧ ∃ bound, ∀ rounds, bound ≤ rounds → ∃ t,
      (({ f with rounds }).copyAll source target options).run.run Store.handler (s, .absent) =
        (.ok 1, (t, .absent)) ∧
      t.content? "b" "t/e/x" = some [1, 2, 3] ∧ t.content? "b" "t/e/" = some [] ∧
      t.content? "b" "t/m/" = some [] := by
  intro fs f source target options b s
  have hkeys : b.keys = ["d/e/x", "d/m/"] := by decide
  have hfiles : treeFiles b source = ["d/e/x"] := by decide
  have htree : b.IsTree := by
    constructor
    · rw [hkeys]
      intro k hk
      rcases List.mem_cons.1 hk with rfl | hk
      · exact ⟨["d", "e", "x"], by simp, by decide, .inl (by decide)⟩
      · rw [List.mem_singleton.1 hk]
        exact ⟨["d", "m"], by simp, by decide, .inr (by decide)⟩
    · rw [hkeys]
      decide
  have hexists : ((f.exists? source).run.run Store.handler (s, .absent)).1 = .ok true := by
    decide +kernel
  have hfits : ∀ k ∈ treeFiles b source, ∀ data, s.content? "b" k = some data →
      data.length < 2 ^ 63 ∧
        Transfer.partCount (options.transferOptions fs) data.length < PlannedPart.numberLimit := by
    intro k hk data hdata
    rw [hfiles, List.mem_singleton] at hk
    subst hk
    have hcontent : s.content? "b" "d/e/x" = some [1, 2, 3] := by decide
    rw [hcontent] at hdata
    cases hdata
    decide
  have hsource : source.Proper := Path.proper_of_isName (by decide)
  have htarget : target.Proper := Path.proper_of_isName (by decide)
  have hb : s.bucket? "b" = some b := by simp [s]
  obtain ⟨bound, hbound⟩ := copyAll_mirrors f s .absent hsource htarget rfl rfl (by decide)
    (by decide) rfl rfl hb hb htree hexists (by decide) (by decide) (by decide) (by decide) options
    hfits
  refine ⟨htree, bound, fun rounds hrounds => ?_⟩
  obtain ⟨t, hrun, hcopies, hmarkers, -⟩ := hbound rounds hrounds
  have hcopy := hcopies ["e", "x"] [1, 2, 3] (by decide) (by decide)
  have hinner := hmarkers ["e"] (by decide) (.inr (by decide))
  have hmarker := hmarkers ["m"] (by decide) (.inr (by decide))
  rw [hfiles] at hrun
  exact ⟨t, hrun, hcopy, hinner, hmarker⟩

end Files

end BucketFs
