import BucketFs.Proofs.Files.Touched
import BucketFs.Proofs.Files.Unfinished
import BucketFs.Proofs.Files.Worklist

/-!
# Tree copies end

A tree copy lists directories while it writes.  It ends because the target is not inside the source,
name by name: then what it writes, even where it writes into the source, leads to no more places
than the keys had at the start.

* `Trees.next_mem` — a round goes on to places of the keys at the start.
* `Trees.round_behaves` — a round behaves if the rounds that are left do.
* `Trees.copyPending_behaves` — the rounds that are left end, and touch entries below the target
  only.
* `Files.copyAll_ends` — every tree copy ends; and where the source is not inside the target either,
  it touches nothing below the source.
-/

namespace BucketFs

open BucketFs.Text BucketFs.Listing Files Worklist

namespace Trees

variable {f : Files} (T : Trees f) {b b' : Bucket} {p : List String}

/-- The objects by which something is at a place below the target. -/
def targets : ObjectSet := fun through bucket key =>
  ∃ p, (∀ n ∈ p, IsName n) ∧
    entryAt T.fs.access T.targetBucket (joined (T.targetNames ++ p)) through bucket key

/-- A key of the source bucket that may have been written to the target for a place of the given
keys. -/
def Written (b : Bucket) (k : String) : Prop :=
  T.targetBucket = T.sourceBucket ∧ ∃ r ∈ infixes b.keys,
    k = joined (T.targetNames ++ r) ∨ k = insidePrefix (joined (T.targetNames ++ r))

/-- The source bucket during a copy that started with the given keys. -/
def Grown (b : Bucket) (s : Store) : Prop :=
  ∃ b', s.bucket? T.sourceBucket = some b' ∧ ∀ k ∈ b'.keys, k ∈ b.keys ∨ T.Written b k

/-- The names of the objects for a place of the target. -/
theorem names_of_entry (hp : ∀ n ∈ p, IsName n) {k : String}
    (hk : k = joined (T.targetNames ++ p) ∨ k = insidePrefix (joined (T.targetNames ++ p))) :
    names k = T.targetNames ++ p := by
  have hnames := (T.locates_target hp).isName
  rcases hk with rfl | rfl
  · exact names_joined hnames
  · exact names_insidePrefix hnames

theorem names_of_written {k : String} (hk : T.Written b k) :
    T.targetBucket = T.sourceBucket ∧ ∃ r ∈ infixes b.keys, names k = T.targetNames ++ r := by
  obtain ⟨hbucket, r, hr, hkey⟩ := hk
  exact ⟨hbucket, r, hr, T.names_of_entry (isName_of_mem_infixes hr) hkey⟩

/-- **A round goes on to places of the keys at the start.**  What was written below the target is
reached from the source only if the source is inside the target, and then by fewer names. -/
theorem next_mem (hguard : T.targetBucket = T.sourceBucket → ¬ T.sourceNames <+: T.targetNames)
    (hkeys : ∀ k ∈ b'.keys, k ∈ b.keys ∨ T.Written b k) (hp : p ∈ infixes b.keys) {n : String}
    (hn : n ∈ T.childrenOf b' p) : p ++ [n] ∈ infixes b.keys := by
  have hnames := isName_of_mem_infixes hp
  obtain ⟨hname, hpresent⟩ := (T.mem_childrenOf hnames).1 hn
  obtain ⟨k, hk, hpre⟩ := exists_key_of_present (T.isName_append (isName_concat hnames hname))
    (by simp) hpresent
  rcases hkeys k hk with hk | hwritten
  · have hsuffix := List.suffix_append T.sourceNames (p ++ [n])
    exact mem_infixes.2 (.inr ⟨k, hk, hsuffix.isInfix.trans hpre.isInfix⟩)
  · obtain ⟨hbucket, r, hr, hk⟩ := T.names_of_written hwritten
    rw [hk] at hpre
    have hsource : T.sourceNames <+: T.targetNames ++ r := (List.prefix_append _ _).trans hpre
    rcases List.prefix_or_prefix_of_prefix hsource (List.prefix_append _ _) with hin | ⟨u, hu⟩
    · exact absurd hin (hguard hbucket)
    · rw [← hu, List.append_assoc, List.prefix_append_right_inj] at hpre
      exact mem_infixes_of_infix hr ((List.suffix_append u (p ++ [n])).isInfix.trans hpre.isInfix)

/-- The number of keys that the source bucket may come to have. -/
def growth (b : Bucket) : Nat := b.size + 2 * (infixes b.keys).length

theorem size_le (hkeys : ∀ k ∈ b'.keys, k ∈ b.keys ∨ T.Written b k) : b'.size ≤ growth b := by
  have hsub : b'.keys ⊆ b.keys ++ (infixes b.keys).flatMap fun r =>
      [joined (T.targetNames ++ r), insidePrefix (joined (T.targetNames ++ r))] := by
    intro k hk
    rw [List.mem_append, List.mem_flatMap]
    rcases hkeys k hk with hk | ⟨-, r, hr, hkey⟩
    · exact .inl hk
    · exact .inr ⟨r, hr, by simpa using hkey⟩
  have hlen := (b'.keys_nodup.subperm hsub).length_le
  simp only [List.length_append, List.length_flatMap, List.length_cons, List.length_nil,
    List.map_const', List.sum_replicate_nat, KeyMap.keys, List.length_map] at hlen
  unfold growth KeyMap.size KeyMap.keys
  omega

/-- Touching an entry of the target adds no other keys. -/
theorem Grown.keeps {α : Type} {a : Action α} {s : Store × LocalFile} (hgrown : T.Grown b s.1)
    (hp : p ∈ infixes b.keys)
    (hwithin : a.run.Along Store.handler (Call.Within (fun _ => True) Prod.fst
      (entryAt T.fs.access T.targetBucket (joined (T.targetNames ++ p)))) s) :
    T.Grown b (a.run.run Store.handler s).2.1 := by
  obtain ⟨b', hb', hkeys⟩ := hgrown
  obtain ⟨b'', hb''⟩ := Store.handler_serves.bucket_stays a.run hb'
  refine ⟨b'', hb'', fun k hk => ?_⟩
  by_cases hentry : T.targetBucket = T.sourceBucket ∧
      (k = joined (T.targetNames ++ p) ∨ k = insidePrefix (joined (T.targetNames ++ p)))
  · exact .inr ⟨hentry.1, p, hp, hentry.2⟩
  · have hsame := Store.handler_serves.untouched hwithin T.sourceBucket k
      fun _ _ htouched => hentry ⟨htouched.2.1.symm, htouched.2.2⟩
    apply hkeys
    rw [Store.mem_keys_iff hb'] at ⊢
    rwa [Store.mem_keys_iff hb'', hsame] at hk

/-- The calls that a copy may make: none touches anything but entries below the target. -/
def allowed : Call → Store × LocalFile → Prop :=
  Call.Within (fun _ => True) Prod.fst T.targets

/-- A step of a round that touches at most the entry of its place, and takes no rounds. -/
theorem entry_step {α β : Type} {a : Action α} {next : α → Action β} {s : Store × LocalFile}
    (hgrown : T.Grown b s.1) (hp : p ∈ infixes b.keys)
    (hwithin : a.Always Store.handler (Call.Within (fun _ => True) Prod.fst
      (entryAt T.fs.access T.targetBucket (joined (T.targetNames ++ p)))))
    (havoids : a.Avoids Store.handler .unfinished)
    (hnext : ∀ x t, T.Grown b t.1 → (next x).Behaves Store.handler T.allowed .unfinished t) :
    (a >>= next).Behaves Store.handler T.allowed .unfinished s := by
  refine Action.Behaves.bind ⟨?_, havoids s⟩ fun x t hrun => hnext x t ?_
  · exact (hwithin s).mono (Call.Within.mono fun _ _ _ hentry =>
      ⟨p, isName_of_mem_infixes hp, hentry⟩)
  · have hkeeps := hgrown.keeps T hp (hwithin s)
    rwa [hrun] at hkeeps

/-- The listing of a round leads on to places of the keys at the start. -/
theorem list_step (hguard : T.targetBucket = T.sourceBucket → ¬ T.sourceNames <+: T.targetNames)
    (hbound : growth b < f.rounds) {α : Type} {s : Store × LocalFile} (hgrown : T.Grown b s.1)
    (hp : p ∈ infixes b.keys) {next : List Path → Action α}
    (hnext : ∀ ns : List String, ns.Nodup → (∀ n ∈ ns, p ++ [n] ∈ infixes b.keys) →
      (next (ns.map fun n => T.sourceAt (p ++ [n]))).Behaves Store.handler T.allowed .unfinished s) :
    Action.Behaves Store.handler T.allowed .unfinished (do
      let stream ← Action.ofResult (f.children (T.sourceAt p))
      let inside ← stream.collect f.rounds
      next inside) s := by
  obtain ⟨b', hb', hkeys⟩ := hgrown
  obtain ⟨stream, hstream, hcollect⟩ := T.collect_cases s.2 hb' (isName_of_mem_infixes hp)
    (Nat.lt_of_le_of_lt (T.size_le hkeys) hbound)
  rw [hstream, Action.ofResult_ok_bind]
  rcases hcollect with hrun | ⟨fault, hfault, hrun⟩
  · refine Action.Behaves.bind ⟨collect_reads _ _ s, by rw [hrun]; nofun⟩ fun inside t hinside => ?_
    rw [hrun] at hinside
    cases hinside
    exact hnext _ (T.childrenOf_nodup b' p) fun n hn => T.next_mem hguard hkeys hp hn
  · refine Action.Behaves.bind ⟨collect_reads _ _ s, ?_⟩ fun inside t hinside => ?_
    · rw [hrun]
      exact fun heq => hfault (FsError.internal.inj (Except.error.inj heq))
    · rw [hrun] at hinside
      cases hinside

/-- **A round behaves** if the rounds that are left do, whatever children it adds to the list. -/
theorem round_behaves (hguard : T.targetBucket = T.sourceBucket →
      ¬ T.sourceNames <+: T.targetNames) (hbound : growth b < f.rounds) (options : CopyMode)
    {rounds files : Nat} {ps : List (List String)} {s : Store × LocalFile} (hgrown : T.Grown b s.1)
    (hp : p ∈ infixes b.keys)
    (hrest : ∀ ns files t, T.Grown b t.1 → ns.Nodup → (∀ n ∈ ns, p ++ [n] ∈ infixes b.keys) →
      (f.copyPending options rounds (T.work (expand p ns ++ ps)) files).Behaves Store.handler
        T.allowed .unfinished t) :
    (f.copyPending options (rounds + 1) (T.work (p :: ps)) files).Behaves Store.handler T.allowed
      .unfinished s := by
  have htarget := T.locates_target (isName_of_mem_infixes hp)
  have hunbounded := Store.handler_unbounded
  have hlist : ∀ t : Store × LocalFile, T.Grown b t.1 → Action.Behaves Store.handler T.allowed
      .unfinished (do
        let stream ← Action.ofResult (f.children (T.sourceAt p))
        let inside ← stream.collect f.rounds
        let work := inside.filterMap fun child =>
          child.lastName?.map fun name => (child, (T.targetAt p).resolve name)
        f.copyPending options rounds (work.reverse ++ T.work ps) files) t := by
    intro t ht
    refine T.list_step hguard hbound ht hp fun ns hnodup hns => ?_
    dsimp only
    rw [T.work_expand]
    exact hrest ns files t ht hnodup hns
  rw [work_cons, copyPending]
  refine T.entry_step hgrown hp (status_reads f _) (status_avoids hunbounded f _)
    fun found t ht => ?_
  split
  · refine T.entry_step ht hp (copy_within Store.handler_serves _ htarget options)
      (Files.copy_avoids hunbounded f _ _ _) fun _ u hu => ?_
    exact hrest [] _ u hu List.nodup_nil (List.forall_mem_nil _)
  · refine T.entry_step ht hp (exists_reads f _) (exists_avoids hunbounded f _)
      fun there u hu => ?_
    dsimp only
    split
    · exact T.entry_step hu hp (makeDirectory_within htarget)
        (makeDirectory_avoids hunbounded f _) fun _ v hv => hlist v hv
    · exact hlist u hu

/-- **The rounds that are left** come to an end, and touch entries below the target only. -/
theorem copyPending_behaves (hguard : T.targetBucket = T.sourceBucket →
      ¬ T.sourceNames <+: T.targetNames) (hbound : growth b < f.rounds) (options : CopyMode)
    (rounds : Nat) :
    ∀ (ps : List (List String)) (files : Nat) (s : Store × LocalFile), T.Grown b s.1 →
      (∀ p ∈ ps, p ∈ infixes b.keys) → ps.Pairwise Apart → ahead (infixes b.keys) ps ≤ rounds →
      (f.copyPending options rounds (T.work ps) files).Behaves Store.handler T.allowed .unfinished
        s := by
  have hdone : ∀ rounds files s, (f.copyPending options rounds (T.work []) files).Behaves
      Store.handler T.allowed .unfinished s := by
    intro rounds files s
    rw [work_nil, copyPending]
    exact Action.behaves_pure _ _
  induction rounds with
  | zero =>
    intro ps files s hgrown hps hapart hahead
    cases ps with
    | nil => exact hdone 0 files s
    | cons p ps =>
      have hlt := ahead_expand_lt hapart (hps p List.mem_cons_self) []
      omega
  | succ rounds ih =>
    intro ps files s hgrown hps hapart hahead
    cases ps with
    | nil => exact hdone (rounds + 1) files s
    | cons p ps =>
      have hp := hps p List.mem_cons_self
      refine T.round_behaves hguard hbound options hgrown hp fun ns files t ht hnodup hns => ?_
      -- whatever the round adds to the list, there is less ahead
      have hlt := ahead_expand_lt hapart hp ns
      refine ih _ files t ht (fun q hq => ?_) (apart_expand hapart hnodup) (by omega)
      rcases List.mem_append.1 hq with hq | hq
      · obtain ⟨n, hn, rfl⟩ := mem_expand.1 hq
        exact hns n hn
      · exact hps q (List.mem_cons_of_mem _ hq)

/-- Where neither tree is inside the other one, no entry below the target is below the source. -/
theorem targets_apart (hguard : T.targetBucket = T.sourceBucket → ¬ T.sourceNames <+: T.targetNames)
    (hback : T.targetBucket = T.sourceBucket → ¬ T.targetNames <+: T.sourceNames)
    {through : Access} {key : String} (htouched : T.targets through T.sourceBucket key) :
    hasPrefix (insidePrefix (joined T.sourceNames)) key = false := by
  obtain ⟨p, hp, -, hbucket, hkey⟩ := htouched
  have hapart : Apart T.sourceNames T.targetNames := ⟨hguard hbucket.symm, hback hbucket.symm⟩
  rw [← Bool.not_eq_true]
  intro hinside
  have hpre := prefix_of_inside T.fromSource.isName hinside
  rw [T.names_of_entry hp hkey] at hpre
  exact hapart.not_prefix_append p hpre

end Trees

namespace Files

variable {f : Files} {source target : Path} {fs : FileSystem}

/-- Whether a key is inside the directory at a path. -/
def Inside (p : Path) (bucket key : String) : Prop :=
  p.bucket? = some bucket ∧ hasPrefix (insidePrefix p.key) key = true

theorem copyAll_behaves {allowed : Call → Store × LocalFile → Prop} {options : CopyMode}
    {s : Store × LocalFile}
    (hpending : (f.copyPending options f.rounds [(source, target)] 0).Behaves Store.handler allowed
      .unfinished s) :
    (f.copyAll source target options).Behaves Store.handler allowed .unfinished s := by
  unfold copyAll
  simp only [Action.throw_bind]
  split
  · exact Action.behaves_throw (by simp) s
  · exact hpending

/-- A copy whose target is outside all buckets ends in its first round. -/
theorem copyPending_nowhere {s : Store × LocalFile}
    (hnowhere : ∀ found t, (f.status source).run.run Store.handler s = (.ok found, t) →
      f.locate target = .error (.invalidArgument (.outsideBuckets target.render)))
    (may : ObjectSet) (options : CopyMode) (rounds : Nat) :
    (f.copyPending options (rounds + 1) [(source, target)] 0).Behaves Store.handler
      (Call.Within (fun _ => True) Prod.fst may) .unfinished s := by
  have hunbounded := Store.handler_unbounded
  rw [copyPending]
  refine Action.Behaves.bind ⟨status_reads f _ s, status_avoids hunbounded f _ s⟩
    fun found t hstatus => ?_
  have htarget := hnowhere found t hstatus
  split
  · refine Action.Behaves.bind ⟨?_, Files.copy_avoids hunbounded f _ _ _ t⟩ fun _ u _ => ?_
    · unfold copy
      split
      · exact Action.always_pure _ t
      · rw [htarget]
        exact ((status_reads f source).bind fun _ => Action.always_throw _) t
    · rw [copyPending]
      exact Action.behaves_pure _ u
  · have hexists : (f.exists? target).run.run Store.handler t =
        (.error (.invalidArgument (.outsideBuckets target.render)), t) := by
      rw [exists?, status, htarget]
      rfl
    refine Action.Behaves.bind ⟨exists_reads f _ t, exists_avoids hunbounded f _ t⟩
      fun there u hthere => ?_
    rw [hexists] at hthere
    cases hthere

theorem not_startsWith_iff {b b' : String} {ns ns' : List String}
    (hs : f.Locates source fs b ns) (ht : f.Locates target fs b' ns') :
    target.startsWith source = false ↔ (b' = b → ¬ ns <+: ns') := by
  have hsegments : target.startsWith source = (b :: ns).isPrefixOf (b' :: ns') := by
    rw [hs.path_eq, ht.path_eq]
    simp [Path.startsWith, Path.isEmpty]
  rw [hsegments, ← Bool.not_eq_true, List.isPrefixOf_iff_prefix, List.cons_prefix_cons, not_and,
    @eq_comm _ b b']

/-- Whether the rounds of a copy end once enough are allowed, and touch nothing below the source
unless the source is inside the target. -/
def RoundsEnd (f : Files) (options : CopyMode) (source target : Path) (s : Store × LocalFile) :
    Prop :=
  ∃ bound, ∀ rounds, bound ≤ rounds → ∃ may : ObjectSet,
    (source.startsWith target = false →
      ∀ through bucket key, may through bucket key → ¬ Inside source bucket key) ∧
    (({ f with rounds }).copyPending options rounds [(source, target)] 0).Behaves Store.handler
      (Call.Within (fun _ => True) Prod.fst may) .unfinished s

/-- A copy whose source is not there, or whose target is outside all buckets, touches nothing. -/
theorem roundsEnd_nowhere (f : Files) (options : CopyMode) {s : Store × LocalFile}
    (hnowhere : ∀ rounds found t, (({ f with rounds } : Files).status source).run.run
        Store.handler s = (.ok found, t) →
      f.locate target = .error (.invalidArgument (.outsideBuckets target.render))) :
    f.RoundsEnd options source target s := by
  refine ⟨1, fun rounds hrounds => ⟨fun _ _ _ => False, fun _ _ _ _ => False.elim, ?_⟩⟩
  obtain ⟨rounds, rfl⟩ : ∃ r, rounds = r + 1 := ⟨rounds - 1, by omega⟩
  exact copyPending_nowhere (f := { f with rounds := rounds + 1 }) (hnowhere _) _ options rounds

/-- A copy from one place of the store to another. -/
theorem roundsEnd_of_locates {s : Store} {bucket bucket' : String} {ns ns' : List String}
    {b : Bucket} (file : LocalFile) (options : CopyMode) (hs : f.Locates source fs bucket ns)
    (ht : f.Locates target fs bucket' ns') (hb : s.bucket? bucket = some b)
    (hguard : target.startsWith source = false) :
    f.RoundsEnd options source target (s, file) := by
  refine ⟨max (Trees.growth b + 1) (infixes b.keys).length, fun rounds hrounds => ?_⟩
  let T := Trees.ofLocates hs ht rounds
  have hin := (not_startsWith_iff hs ht).1 hguard
  refine ⟨T.targets, fun hback through bucket'' key htouched hinside => ?_, ?_⟩
  · have hout := (not_startsWith_iff ht hs).1 hback
    obtain ⟨hbucket, hpre⟩ := hinside
    rw [hs.bucket?_eq] at hbucket
    obtain rfl := Option.some.inj hbucket
    have hapart : hasPrefix (insidePrefix (joined ns)) key = false :=
      T.targets_apart hin (fun heq => hout heq.symm) htouched
    rw [hs.key_eq, hapart] at hpre
    cases hpre
  · rw [show [(source, target)] = T.work [[]] from T.work_start.symm]
    refine T.copyPending_behaves hin (by simp; omega) options rounds [[]] 0 (s, file)
      ⟨b, hb, fun k hk => .inl hk⟩ ?_ (List.pairwise_singleton _ _) ?_
    · intro p hp
      rw [List.mem_singleton.1 hp]
      exact mem_infixes.2 (.inl rfl)
    · exact Nat.le_trans List.countP_le_length (by omega)

/-- The rounds of a copy end, if the target is not inside the source name by name. -/
theorem copyPending_ends (f : Files) (s : Store) (file : LocalFile) (hsource : source.Proper)
    (htarget : target.Proper) (hopen : f.openFileSystem source = .ok fs)
    (hopen' : f.openFileSystem target = .ok fs) (hguard : target.startsWith source = false)
    (options : CopyMode) : f.RoundsEnd options source target (s, file) := by
  rcases locates_or_error hsource hopen with ⟨bucket, ns, hs⟩ | hs
  · rcases locates_or_error htarget hopen' with ⟨bucket', ns', ht⟩ | ht
    · cases hb : s.bucket? bucket with
      | some b => exact roundsEnd_of_locates file options hs ht hb hguard
      | none =>
        refine roundsEnd_nowhere f options fun rounds found t hstatus => ?_
        obtain ⟨e, hresolve, -⟩ := FileStatus.resolve_nowhere fs.access file hb (joined ns)
        have hlocate : ({ f with rounds } : Files).locate source = .ok (fs, bucket, joined ns) :=
          hs.locate_eq
        rw [status, hlocate, Action.ofResult_ok_bind] at hstatus
        dsimp only at hstatus
        rw [hresolve] at hstatus
        cases hstatus
    · exact roundsEnd_nowhere f options fun _ _ _ _ => ht
  · refine roundsEnd_nowhere f options fun rounds found t hstatus => ?_
    have hlocate : ({ f with rounds } : Files).locate source =
        .error (.invalidArgument (.outsideBuckets source.render)) := hs
    rw [status, hlocate] at hstatus
    cases hstatus

/-- **Every tree copy ends**, once enough rounds are allowed, if the target is not inside the source
name by name.  If the source is not inside the target either, nothing below the source is
touched. -/
theorem copyAll_ends (f : Files) (s : Store) (file : LocalFile) (hsource : source.Proper)
    (htarget : target.Proper) (hopen : f.openFileSystem source = .ok fs)
    (hopen' : f.openFileSystem target = .ok fs) (hguard : target.startsWith source = false)
    (options : CopyMode) :
    ∃ bound, ∀ rounds, bound ≤ rounds → ∀ result t,
      (({ f with rounds }).copyAll source target options).run.run Store.handler (s, file) =
        (result, t) →
      result ≠ .error .unfinished ∧
      (source.startsWith target = false →
        (({ f with rounds }).copyAll source target options).run.Along Store.handler
          (Call.Within (fun _ => True) Prod.fst fun _ bucket key => ¬ Inside source bucket key)
          (s, file) ∧
        ∀ bucket key, Inside source bucket key →
          t.1.object? bucket key = s.object? bucket key) := by
  obtain ⟨bound, hbound⟩ :=
    copyPending_ends f s file hsource htarget hopen hopen' hguard options
  refine ⟨bound, fun rounds hrounds result t hrun => ?_⟩
  obtain ⟨may, hmay, hpending⟩ := hbound rounds hrounds
  obtain ⟨hcalls, hresult⟩ := copyAll_behaves (f := { f with rounds }) hpending
  refine ⟨by rwa [hrun] at hresult, fun hback => ?_⟩
  have halong := hcalls.mono (Call.Within.mono (hmay hback))
  refine ⟨halong, fun bucket key hinside => ?_⟩
  have hsame := Store.handler_serves.untouched halong bucket key
    fun _ _ hnot => hnot hinside
  rwa [hrun] at hsame

/-- A source that ends in the name for a parent directory: the name counts like any other one. -/
theorem copyAll_ends_dotted :
    let fs : FileSystem := ⟨0, ⟨"", ""⟩, {}, ⟨0, 0⟩, true⟩
    let f : Files := { fileSystems := [fs], rounds := 0 }
    let source : Path := ⟨0, true, ["b", "a", ".."]⟩
    let target : Path := ⟨0, true, ["b", "c"]⟩
    let o : ObjectRecord := ⟨[1], "", .epoch, .byDefault⟩
    let s : Store := (Store.new 1 .epoch).setBucket "b" (KeyMap.empty.insert "a/../x" o)
    target.startsWith source = false ∧ source.startsWith target = false ∧
      ∃ bound, ∀ rounds, bound ≤ rounds → ∀ result t,
        (({ f with rounds }).copyAll source target {}).run.run Store.handler (s, .absent) =
          (result, t) → result ≠ .error .unfinished ∧ t.1.object? "b" "a/../x" = some o := by
  intro fs f source target o s
  have hguard : target.startsWith source = false := by decide
  have hback : source.startsWith target = false := by decide
  obtain ⟨bound, hbound⟩ := copyAll_ends f s .absent (Path.proper_of_isName (by decide))
    (Path.proper_of_isName (by decide)) rfl rfl hguard {}
  refine ⟨hguard, hback, bound, fun rounds hrounds result t hrun => ?_⟩
  obtain ⟨hresult, happart⟩ := hbound rounds hrounds result t hrun
  refine ⟨hresult, ?_⟩
  rw [(happart hback).2 "b" "a/../x" ⟨rfl, by decide⟩]
  decide

/-- **A copy into the source**: the target is inside the source name by name, but is not taken to be
so, because a name for a parent directory takes the name before it away. -/
theorem copyAll_into_source :
    let fs : FileSystem := ⟨0, ⟨"", ""⟩, {}, ⟨0, 0⟩, true⟩
    let f : Files := { fileSystems := [fs], rounds := 10 }
    let source : Path := ⟨0, true, ["b", "a"]⟩
    let target : Path := ⟨0, true, ["b", "a", "..", "c"]⟩
    let s : Store := (Store.new 1000 .epoch).setBucket "b"
      (KeyMap.empty.insert "a" ⟨[1], "", .epoch, .byDefault⟩)
    let copied := (f.copyAll source target {}).run.run Store.handler (s, .absent)
    target.normalize.startsWith source.normalize = false ∧ copied.1 = .ok 1 ∧
      hasPrefix (insidePrefix source.key) "a/../c" = true ∧ s.object? "b" "a/../c" = none ∧
      copied.2.1.content? "b" "a/../c" = some [1] := by
  decide +kernel

end Files

end BucketFs
