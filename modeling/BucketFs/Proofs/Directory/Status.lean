import BucketFs.Directory.Status
import BucketFs.Proofs.Call.Action
import BucketFs.Proofs.Listing.Pagination
import BucketFs.Proofs.Store.Objects
import BucketFs.Proofs.Text.Names

/-!
# What a status says about a bucket

Names of a bucket stand for a file where an object has their joined text as its key, and for a
directory where keys lie below them; the bucket itself is a directory.

* `StatusOf` — what the status of some names has to say about a bucket.
* `resolve_run` — over a store in memory the probes and the listing say just that; in a bucket that
  does not exist nothing has a status (`resolve_nowhere`).
-/

namespace BucketFs

open BucketFs.Text BucketFs.Listing

/-- Whether an object has the joined names as its key. -/
structure HasFile (b : Bucket) (ns : List String) : Prop where
  named : ns ≠ []
  stored : joined ns ∈ b.keys

/-- Whether the names stand for the bucket itself, or keys lie below them. -/
def HasDirectory (b : Bucket) (ns : List String) : Prop :=
  ns = [] ∨ ∃ k ∈ b.keys, hasPrefix (joined ns ++ slash) k = true

/-- What the status of some names says about their bucket.  An object hides a directory of the same
name. -/
inductive StatusOf (b : Bucket) (ns : List String) : Result FileStatus → Prop
  | file {a : FileStatus} (stored : HasFile b ns) (isFile : a.isDirectory = false) :
      StatusOf b ns (.ok a)
  | directory {a : FileStatus} (unstored : ¬ HasFile b ns) (below : HasDirectory b ns)
      (isDirectory : a.isDirectory = true) : StatusOf b ns (.ok a)
  | nothing {e : FsError} (unstored : ¬ HasFile b ns) (empty : ¬ HasDirectory b ns)
      (isMissing : e.isMissing = true) : StatusOf b ns (.error e)

/-- A file is where an object is stored. -/
theorem hasFile_iff {s : Store} {bucket : String} {b : Bucket} (hb : s.bucket? bucket = some b)
    {ns : List String} (hne : ns ≠ []) :
    HasFile b ns ↔ (s.object? bucket (joined ns)).isSome = true := by
  rw [Option.isSome_iff_exists, ← Store.mem_keys_iff hb]
  exact ⟨fun h => h.stored, fun h => ⟨hne, h⟩⟩

namespace FileStatus

theorem ofInfo_isDirectory (key : String) (info : Option ObjectInfo) :
    (ofInfo key info).isDirectory = endsInSeparator key := by
  rw [ofInfo]
  cases h : endsInSeparator key with
  | true => rfl
  | false => rfl

section Memory

variable {s : Store} {bucket : String} {b : Bucket} {ns : List String} (through : Access)
  (file : LocalFile)

theorem head_eq (hb : s.bucket? bucket = some b) (key : String) :
    s.head bucket key =
      ((b.get? key).map (·.info key)).elim (.error (.notFound bucket key)) .ok := by
  rw [Store.head, Store.find, hb]
  cases hget : b.get? key with
  | none => simp only [hget]; rfl
  | some o => simp only [hget]; rfl

/-- A probe finds what is stored. -/
theorem probe_run (hb : s.bucket? bucket = some b) (key : String) :
    (probe through bucket key).run.run Store.handler (s, file) =
      (.ok ((b.get? key).map (·.info key)), (s, file)) := by
  have hhead : (Action.outcome (Action.ask through (.head bucket key))).run.run Store.handler
      (s, file) = (.ok (s.head bucket key), (s, file)) := Action.run_outcome _ _ _
  rw [probe, Action.run_bind_ok hhead, head_eq hb]
  cases b.get? key with
  | none => rfl
  | some o => rfl

/-- A listing without a delimiter is empty where no key starts with the prefix. -/
theorem page_isEmpty_iff {listed : String} {limit : Nat} (hlimit : 0 < limit) :
    (page b listed none none limit).isEmpty = true ↔
      ¬ ∃ k ∈ b.keys, hasPrefix listed k = true := by
  have hsize : (page b listed none none limit).size =
      min limit (entries b listed none).length := page_size
  have hnil : entries b listed none = [] ↔ ¬ ∃ k ∈ b.keys, hasPrefix listed k = true := by
    rw [List.eq_nil_iff_forall_not_mem]
    constructor
    · rintro hno ⟨k, hk, hpre⟩
      obtain ⟨o, ho, rfl⟩ := List.mem_map.1 hk
      exact hno _ (mem_entries.2 ⟨o, ho, hpre, rfl⟩)
    · intro hno e he
      obtain ⟨o, ho, hpre, -⟩ := mem_entries.1 he
      exact hno ⟨o.1, List.mem_map_of_mem ho, hpre⟩
  rw [ListPage.isEmpty, beq_iff_eq, hsize, ← hnil, ← List.length_eq_zero_iff]
  omega

theorem list_all_run (hb : s.bucket? bucket = some b) (listed : String) :
    ∃ limit, 0 < limit ∧
      (Action.ask through (.list { bucket, listed, maxKeys := 1 })).run.run Store.handler (s, file) =
        (.ok (page b listed none none limit), (s, file)) := by
  refine ⟨s.effectiveLimit 1, s.effectiveLimit_pos 1, ?_⟩
  have hlist := Store.list_eq (r := { bucket, listed, maxKeys := 1 }) hb none
  rw [Action.run_ask]
  simp only [Store.handler, Store.answer]
  exact congrArg (·, (s, file)) hlist

/-- **The status of names** says what their bucket has, and changes nothing. -/
theorem resolve_run (hb : s.bucket? bucket = some b) (hns : ∀ n ∈ ns, IsName n) :
    ∃ r, (resolve through bucket (joined ns)).run.run Store.handler (s, file) = (r, (s, file)) ∧
      StatusOf b ns r := by
  have htrim := trimEnd_joined hns
  rw [resolve]
  generalize trimEnd separator (joined ns) = base at htrim ⊢
  subst htrim
  simp only [endsInSeparator_joined hns, joined_eq_empty_iff hns]
  by_cases hnil : ns = []
  · obtain ⟨limit, -, hlist⟩ := list_all_run through file hb ""
    rw [if_pos hnil, Action.run_bind_ok hlist]
    exact ⟨_, rfl, .directory (fun h => h.named hnil) (.inl hnil) rfl⟩
  · have hfile : HasFile b ns ↔ ∃ o, b.get? (joined ns) = some o := by
      rw [← KeyMap.mem_keys_iff]
      exact ⟨fun h => h.stored, fun h => ⟨hnil, h⟩⟩
    rw [if_neg hnil, if_neg Bool.false_ne_true, Action.run_bind_ok (probe_run through file hb _)]
    cases hbase : b.get? (joined ns) with
    | some o =>
      refine ⟨_, rfl, .file (hfile.2 ⟨o, hbase⟩) ?_⟩
      rw [ofInfo_isDirectory, endsInSeparator_joined hns]
    | none =>
      have hunstored : ¬ HasFile b ns := by
        rw [hfile, hbase]
        simp
      dsimp only [Option.map_none]
      rw [Action.run_bind_ok (probe_run through file hb _)]
      cases hmarker : b.get? (joined ns ++ slash) with
      | some o =>
        refine ⟨_, rfl, .directory hunstored (.inr ⟨_, ?_, hasPrefix_refl _⟩) ?_⟩
        · exact KeyMap.mem_keys_iff.2 ⟨o, hmarker⟩
        · rw [ofInfo_isDirectory, endsInSeparator_append_slash]
      | none =>
        obtain ⟨limit, hlimit, hlist⟩ := list_all_run through file hb (joined ns ++ slash)
        dsimp only [Option.map_none]
        rw [Action.run_bind_ok hlist]
        have hempty : (page b (joined ns ++ slash) none none limit).isEmpty = true ↔
            ¬ ∃ k ∈ b.keys, hasPrefix (joined ns ++ slash) k = true := page_isEmpty_iff hlimit
        by_cases hbelow : ∃ k ∈ b.keys, hasPrefix (joined ns ++ slash) k = true
        · rw [if_neg (fun h => hempty.1 h hbelow)]
          refine ⟨_, rfl, .directory hunstored (.inr hbelow) ?_⟩
          rw [ofInfo_isDirectory, endsInSeparator_append_slash]
        · rw [if_pos (hempty.2 hbelow)]
          exact ⟨_, rfl, .nothing hunstored (fun h => h.elim hnil hbelow) rfl⟩

/-- In a bucket that does not exist, nothing has a status. -/
theorem resolve_nowhere (hb : s.bucket? bucket = none) (key : String) :
    ∃ e, (resolve through bucket key).run.run Store.handler (s, file) = (.error e, (s, file)) ∧
      e.isMissing = true := by
  have hlist : ∀ listed, (Action.ask through (.list { bucket, listed, maxKeys := 1 })).run.run
      Store.handler (s, file) = (.error (.notFound bucket ""), (s, file)) := by
    intro listed
    rw [Action.run_ask]
    simp only [Store.handler, Store.answer, Store.list, hb, bind, Except.bind]
  have hprobe : ∀ key, (probe through bucket key).run.run Store.handler (s, file) =
      (.ok none, (s, file)) := by
    intro key
    have hhead : (Action.outcome (Action.ask through (.head bucket key))).run.run Store.handler
        (s, file) = (.ok (.error (.notFound bucket "")), (s, file)) := by
      rw [Action.run_outcome, Action.run_ask]
      simp only [Store.handler, Store.answer, Store.head, Store.find, hb, Except.map]
    rw [probe, Action.run_bind_ok hhead]
    rfl
  rw [resolve]
  dsimp only
  split
  · exact ⟨_, Action.run_bind_error (hlist ""), rfl⟩
  · split
    · rw [Action.run_bind_ok (Action.run_pure _ _ _), Action.run_bind_ok (hprobe _)]
      exact ⟨_, Action.run_bind_error (hlist _), rfl⟩
    · rw [Action.run_bind_ok (hprobe _), Action.run_bind_ok (hprobe _)]
      exact ⟨_, Action.run_bind_error (hlist _), rfl⟩

end Memory

end FileStatus

end BucketFs
