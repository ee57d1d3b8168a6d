import BucketFs.Proofs.Call.Along
import BucketFs.Proofs.Store.Handlers
import BucketFs.Proofs.Store.Objects
import BucketFs.Proofs.Store.Sessions

/-!
# The objects that calls touch

* `StoreCall.touched?` — the one object that a call may write or remove; `answer_object?` says that
  every other object stays as it is.
* `Call.Within` — a call that touches only objects that it may touch.
* `Handler.Serves.untouched` — what no call of a run touches is there after the run as before.
* `Handler.Serves.run_passed` — a run without failures is the run over the store itself.
-/

namespace BucketFs

/-- The object that a call writes or removes when it succeeds.  A completion writes the target of
its session. -/
def StoreCall.touched? (c : StoreCall) (s : Store) : Option (String × String) :=
  match c with
  | .put bucket key _ _ => some (bucket, key)
  | .delete bucket key => some (bucket, key)
  | .copy _ _ bucket key _ => some (bucket, key)
  | .complete handle _ => (s.uploads.get? handle.uploadId).map fun u => (u.bucket, u.key)
  | _ => none

namespace Store

variable {s : Store} {bucket key bucket' key' : String}

theorem write_object? (o : ObjectRecord) (hne : (bucket, key) ≠ (bucket', key')) :
    (s.write bucket key o).2.object? bucket' key' = s.object? bucket' key' := by
  cases hb : s.bucket? bucket with
  | none => rw [write, hb]
  | some b =>
    rw [write_eq_ok hb, object?_setBucket_insert hb, if_neg]
    rintro ⟨rfl, rfl⟩
    exact hne rfl

theorem delete_object? (hne : (bucket, key) ≠ (bucket', key')) :
    (s.delete bucket key).2.object? bucket' key' = s.object? bucket' key' := by
  cases hb : s.bucket? bucket with
  | none => rw [delete, hb]
  | some b =>
    rw [delete, hb]
    dsimp only
    rw [object?, bucket?_setBucket, object?]
    by_cases hbucket : bucket' = bucket
    · subst hbucket
      have hkey : key' ≠ key := fun heq => hne (by rw [heq])
      rw [if_pos rfl, hb, Option.bind_some, Option.bind_some, KeyMap.get?_erase_of_ne hkey]
    · rw [if_neg hbucket]

theorem put_object? (data : Bytes) (acl : Option Acl) (hne : (bucket, key) ≠ (bucket', key')) :
    (s.put bucket key data acl).2.object? bucket' key' = s.object? bucket' key' := by
  have hwrite := write_object? (s := s)
    (s.stamp data (Etag.ofContent data) (acl.getD .byDefault)) hne
  unfold put
  dsimp only
  split <;> rename_i heq <;> rwa [heq] at hwrite

theorem initiate_buckets (acl : Option Acl) :
    (s.initiate bucket key acl).2.buckets = s.buckets := by
  unfold initiate
  split <;> rfl

theorem complete_object? {handle : UploadHandle} (parts : List FinishedPart)
    (hne : (s.uploads.get? handle.uploadId).map (fun u => (u.bucket, u.key)) ≠
      some (bucket', key')) :
    (s.complete handle parts).2.object? bucket' key' = s.object? bucket' key' := by
  unfold complete
  cases hu : s.uploads.get? handle.uploadId with
  | none => rfl
  | some u =>
    dsimp only
    cases assemble u parts with
    | error e => rfl
    | ok chosen =>
      rw [hu, Option.map_some] at hne
      exact write_object? _ fun heq => hne (by rw [heq])

/-- **A call leaves every object alone but the one it touches.** -/
theorem answer_object? {c : StoreCall} (h : c.touched? s ≠ some (bucket, key)) :
    (s.answer c).2.object? bucket key = s.object? bucket key := by
  cases c with
  | head | list | get | buckets => rfl
  | put bucket' key' data acl => exact put_object? data acl fun heq => h (by rw [← heq]; rfl)
  | delete bucket' key' => exact delete_object? fun heq => h (by rw [← heq]; rfl)
  | copy sourceBucket sourceKey bucket' key' acl =>
    unfold answer copy
    dsimp only
    cases s.find sourceBucket sourceKey with
    | error e => rfl
    | ok o => exact write_object? _ fun heq => h (by rw [← heq]; rfl)
  | initiate bucket' key' acl => exact object?_congr (initiate_buckets acl) bucket key
  | uploadPart handle number range data =>
    exact object?_congr (keepPart_sameBut s handle number range data).buckets bucket key
  | copyPart handle number range sourceBucket sourceKey =>
    exact object?_congr (copyPart_sameBut s handle number range sourceBucket sourceKey).buckets
      bucket key
  | complete handle parts => exact complete_object? parts h
  | abort handle => exact object?_congr (abort_sameBut s handle).1.buckets bucket key

end Store

/-! ## The calls of a run -/

variable {σ α : Type}

/-- Objects, by the access through which they are touched. -/
abbrev ObjectSet := (through : Access) → (bucket key : String) → Prop

/-- The one object of a bucket and a key. -/
def ObjectSet.single (through : Access) (bucket key : String) : ObjectSet :=
  fun through' bucket' key' => through' = through ∧ bucket' = bucket ∧ key' = key

/-- Whether a call that reaches a store touches only objects that it may touch. -/
def Call.Within (reaches : Access → Prop) (view : σ → Store) (may : ObjectSet) : Call → σ → Prop
  | .store through c, s => reaches through →
    ∀ bucket key, c.touched? (view s) = some (bucket, key) → may through bucket key
  | .file _, _ => True

theorem Call.Within.mono {reaches : Access → Prop} {view : σ → Store} {may might : ObjectSet}
    (hsub : ∀ through bucket key, may through bucket key → might through bucket key)
    (c : Call) (s : σ) (hc : c.Within reaches view may s) : c.Within reaches view might s := by
  cases c with
  | store through c => exact fun hreach bucket key ht => hsub _ _ _ (hc hreach bucket key ht)
  | file c => trivial

/-- A call that touches no object. -/
theorem Call.Within.of_untouched {reaches : Access → Prop} {view : σ → Store} {may : ObjectSet}
    {through : Access} {c : StoreCall} {s : σ} (hc : c.touched? (view s) = none) :
    (Call.store through c).Within reaches view may s := by
  intro _ bucket key htouched
  rw [hc] at htouched
  cases htouched

/-- A call that reaches a store and succeeds. -/
def Event.Passed (reaches : Access → Prop) : Event → Prop
  | ⟨.store through _, reply⟩ => reaches through ∧ ∃ v, reply = .ok v
  | ⟨.file _, _⟩ => False

namespace Handler.Serves

variable {h : Handler σ} {reaches : Access → Prop} {view : σ → Store}
  (hserves : h.Serves reaches view)
include hserves

/-- **What no call of a run touches** is there after the run as it was before. -/
theorem untouched {may : ObjectSet} {p : Program α} {s : σ}
    (hp : p.Along h (Call.Within reaches view may) s) (bucket key : String)
    (hnot : ∀ through, reaches through → ¬ may through bucket key) :
    (view (p.run h s).2).object? bucket key = (view s).object? bucket key := by
  refine Program.Along.keeps
    (fun t => (view t).object? bucket key = (view s).object? bucket key) ?_ hp rfl
  intro c t hwithin ht
  cases c with
  | file c =>
    rw [hserves.file]
    exact ht
  | store through c =>
    rcases hserves.view_cases through c t with ⟨hreach, hview⟩ | hview
    · rw [hview, Store.answer_object? fun htouched =>
        hnot through hreach (hwithin hreach _ _ htouched)]
      exact ht
    · rw [hview]
      exact ht

/-- A run that only reads leaves every object as it was. -/
theorem untouched_of_reads {p : Program α} {s : σ}
    (hp : p.Along h (Call.Within reaches view fun _ _ _ => False) s) (bucket key : String) :
    (view (p.run h s).2).object? bucket key = (view s).object? bucket key :=
  hserves.untouched hp bucket key fun _ _ => id

/-- No run makes or removes a bucket. -/
theorem bucket_none_iff (p : Program α) (s : σ) (bucket : String) :
    (view (p.run h s).2).bucket? bucket = none ↔ (view s).bucket? bucket = none := by
  induction p generalizing s with
  | done a => exact Iff.rfl
  | call c next ih =>
    rw [Program.run_call, ih]
    cases c with
    | file c => rw [hserves.file]
    | store through c =>
      rcases hserves.view_cases through c s with ⟨-, hview⟩ | hview
      · rw [hview]
        exact (Store.answer_change c (view s)).bucket_none_iff bucket
      · rw [hview]

theorem bucket_stays (p : Program α) {s : σ} {bucket : String} {b : Bucket}
    (hb : (view s).bucket? bucket = some b) :
    ∃ b', (view (p.run h s).2).bucket? bucket = some b' := by
  rw [← Option.ne_none_iff_exists', ne_eq, hserves.bucket_none_iff, hb]
  exact Option.some_ne_none b

/-- **A run whose calls all succeed** is the run over the store itself. -/
theorem run_passed (file : LocalFile) {p : Program α} {s : σ}
    (hok : ∀ e ∈ p.events h s, Event.Passed reaches e) :
    p.run Store.handler (view s, file) = ((p.run h s).1, (view (p.run h s).2, file)) := by
  induction p generalizing s with
  | done a => rfl
  | call c next ih =>
    rw [Program.events, List.forall_mem_cons] at hok
    obtain ⟨hpassed, hrest⟩ := hok
    cases c with
    | file c => exact hpassed.elim
    | store through c =>
      obtain ⟨hreach, v, hreply⟩ := hpassed
      obtain ⟨hanswer, hview⟩ := hserves.passed hreach hreply
      have hhandler : Store.handler (.store through c) (view s, file) =
          ((h (.store through c) s).1, (view (h (.store through c) s).2, file)) := by
        rw [hview, hreply, ← hanswer]
        rfl
      rw [Program.run_call, Program.run_call, hhandler]
      exact ih _ hrest

end Handler.Serves

end BucketFs
