import BucketFs.Proofs.Store.Effect

/-!
# What the calls of one session do to a store

* `Store.SameBut` — two states of a store with the same objects and the same other sessions.
* `keepPart_sameBut`, `complete_sameBut`, `abort_sameBut` — no call of a session but a completion
  that succeeds changes more than that session.
-/

namespace BucketFs

namespace Store

/-- Two states of a store that differ in one session at most. -/
structure SameBut (id : String) (s s' : Store) : Prop where
  buckets : s'.buckets = s.buckets
  uploads : s'.uploads.erase id = s.uploads.erase id

variable {id : String} {s s' s'' : Store}

theorem SameBut.refl (id : String) (s : Store) : SameBut id s s := ⟨rfl, rfl⟩

theorem SameBut.trans (h : SameBut id s s') (h' : SameBut id s' s'') : SameBut id s s'' :=
  ⟨h'.buckets.trans h.buckets, h'.uploads.trans h.uploads⟩

/-- Once its session is gone, nothing has changed but that. -/
theorem SameBut.uploads_eq (h : SameBut id s s') (hgone : s'.uploads.get? id = none) :
    s'.uploads = s.uploads.erase id := by
  rw [← h.uploads, KeyMap.erase_of_get?_eq_none hgone]

theorem keepPart_sameBut (s : Store) (handle : UploadHandle) (number : Nat) (range : ByteRange)
    (data : Bytes) : SameBut handle.uploadId s (s.keepPart handle number range data).2 := by
  unfold keepPart
  split
  · exact .refl _ s
  · split
    · exact .refl _ s
    · split
      · exact .refl _ s
      · exact ⟨rfl, KeyMap.erase_insert _ _ _⟩

theorem copyPart_sameBut (s : Store) (handle : UploadHandle) (number : Nat) (range : ByteRange)
    (sourceBucket sourceKey : String) :
    SameBut handle.uploadId s (s.copyPart handle number range sourceBucket sourceKey).2 := by
  unfold copyPart
  split
  · exact .refl _ s
  · exact keepPart_sameBut s handle number range _

theorem initiate_sameBut {bucket key : String} {acl : Option Acl} {handle : UploadHandle}
    (h : (s.initiate bucket key acl).1 = .ok handle) :
    SameBut handle.uploadId s (s.initiate bucket key acl).2 := by
  unfold initiate at h ⊢
  split at h
  · cases h
  · cases h
    exact ⟨rfl, KeyMap.erase_insert _ _ _⟩

/-- A completion that fails changes no object, and no session but its own. -/
theorem complete_sameBut {handle : UploadHandle} {parts : List FinishedPart} {e : FsError}
    (h : (s.complete handle parts).1 = .error e) :
    SameBut handle.uploadId s (s.complete handle parts).2 := by
  unfold complete at h ⊢
  split
  · exact .refl _ s
  · rename_i u hu
    rw [hu] at h
    dsimp only at h
    split
    · exact .refl _ s
    · rename_i data etag hassemble
      rw [hassemble] at h
      rw [write_error h]
      exact ⟨rfl, KeyMap.erase_erase _ _⟩

theorem abort_sameBut (s : Store) (handle : UploadHandle) :
    SameBut handle.uploadId s (s.abort handle).2 ∧
      (s.abort handle).2.uploads.get? handle.uploadId = none := by
  unfold abort
  split
  · rename_i hnone
    exact ⟨.refl _ s, hnone⟩
  · exact ⟨⟨rfl, KeyMap.erase_erase _ _⟩, KeyMap.get?_erase_self _ _⟩

end Store

end BucketFs
