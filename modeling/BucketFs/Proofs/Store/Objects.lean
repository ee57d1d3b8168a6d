import BucketFs.Proofs.Store.Effect

/-!
# What is stored

* `find_eq_ok_iff` — an object is found where it is stored.
* `Wrote` — a store after one object was written.
* `Removed` — a store after one object was removed.
-/

namespace BucketFs.Store

variable {s s' : Store} {bucket key : String} {b : Bucket} {o : ObjectRecord}

/-! ## Reading -/

theorem bucket?_congr (h : s'.buckets = s.buckets) (bucket : String) :
    s'.bucket? bucket = s.bucket? bucket := by
  rw [bucket?, h, ← bucket?]

theorem object?_congr (h : s'.buckets = s.buckets) (bucket key : String) :
    s'.object? bucket key = s.object? bucket key := by
  rw [object?, bucket?_congr h, ← object?]

/-- The keys of a bucket are those of its objects. -/
theorem mem_keys_iff (hb : s.bucket? bucket = some b) {k : String} :
    k ∈ b.keys ↔ ∃ o, s.object? bucket k = some o := by
  rw [KeyMap.mem_keys_iff, object?, hb, Option.bind_some]

theorem find_eq_ok_iff : s.find bucket key = .ok o ↔ s.object? bucket key = some o := by
  unfold find object?
  cases s.bucket? bucket with
  | none => simp
  | some b =>
    cases hget : b.get? key with
    | none => simp [hget]
    | some o' => simp [hget]

theorem find_of_content? {data : Bytes} (h : s.content? bucket key = some data) :
    ∃ o, s.find bucket key = .ok o ∧ o.data = data := by
  obtain ⟨o, ho, rfl⟩ := Option.map_eq_some_iff.1 h
  exact ⟨o, find_eq_ok_iff.2 ho, rfl⟩

/-! ## Writing -/

theorem object?_setBucket_insert (hb : s.bucket? bucket = some b) (key : String) (o : ObjectRecord)
    (bucket' key' : String) :
    (s.setBucket bucket (b.insert key o)).object? bucket' key' =
      if bucket' = bucket ∧ key' = key then some o else s.object? bucket' key' := by
  rw [object?, bucket?_setBucket]
  by_cases hbucket : bucket' = bucket
  · subst hbucket
    rw [if_pos rfl, Option.bind_some, KeyMap.get?_insert, object?, hb, Option.bind_some]
    by_cases hkey : key' = key <;> simp [hkey]
  · rw [if_neg hbucket, if_neg fun h => hbucket h.1, object?]

theorem write_eq_ok (hb : s.bucket? bucket = some b) (key : String) (o : ObjectRecord) :
    s.write bucket key o = (.ok (), s.setBucket bucket (b.insert key o)) := by
  rw [write, hb]

/-- A store after an object with the given content and access setting was written. -/
structure Wrote (s s' : Store) (bucket key : String) (data : Bytes) (acl : Acl) : Prop where
  content : s'.content? bucket key = some data
  acl : s'.acl? bucket key = some acl
  others : ∀ bucket' key', ¬ (bucket' = bucket ∧ key' = key) →
    s'.object? bucket' key' = s.object? bucket' key'

theorem wrote_setBucket (hb : s.bucket? bucket = some b) (key : String) (o : ObjectRecord) :
    Wrote s (s.setBucket bucket (b.insert key o)) bucket key o.data o.acl := by
  have hobject := object?_setBucket_insert hb key o
  refine ⟨?_, ?_, fun bucket' key' hne => ?_⟩
  · rw [content?, hobject, if_pos ⟨rfl, rfl⟩, Option.map_some]
  · rw [acl?, hobject, if_pos ⟨rfl, rfl⟩, Option.map_some]
  · rw [hobject, if_neg hne]

theorem Wrote.bucket_exists {data : Bytes} {acl : Acl} (h : Wrote s s' bucket key data acl) :
    ∃ b, s'.bucket? bucket = some b := by
  have hcontent := h.content
  cases hb : s'.bucket? bucket with
  | some b => exact ⟨b, rfl⟩
  | none =>
    rw [content?, object?, hb] at hcontent
    cases hcontent

/-- Only the objects of the store before matter. -/
theorem Wrote.congr {t : Store} {data : Bytes} {acl : Acl} (h : Wrote t s' bucket key data acl)
    (ht : t.buckets = s.buckets) : Wrote s s' bucket key data acl :=
  ⟨h.content, h.acl, fun bucket' key' hne => (h.others bucket' key' hne).trans
    (object?_congr ht bucket' key')⟩

/-! ## Removing -/

/-- A store without the object at a place, and otherwise as before. -/
structure Removed (s s' : Store) (bucket key : String) : Prop where
  gone : s'.object? bucket key = none
  others : ∀ bucket' key', ¬ (bucket' = bucket ∧ key' = key) →
    s'.object? bucket' key' = s.object? bucket' key'
  buckets : ∀ name, s'.bucket? name = none ↔ s.bucket? name = none
  uploads : s'.uploads = s.uploads
  opened : s'.opened = s.opened

/-- Nothing has to be done where no object is. -/
theorem removed_refl (h : s.object? bucket key = none) : Removed s s bucket key :=
  ⟨h, fun _ _ _ => rfl, fun _ => Iff.rfl, rfl, rfl⟩

theorem delete_eq_ok (hb : s.bucket? bucket = some b) (key : String) :
    s.delete bucket key = (.ok (), s.setBucket bucket (b.erase key)) := by
  rw [delete, hb]

theorem removed_setBucket (hb : s.bucket? bucket = some b) (key : String) :
    Removed s (s.setBucket bucket (b.erase key)) bucket key := by
  refine ⟨?_, fun bucket' key' hne => ?_, fun name => ?_, rfl, rfl⟩
  · rw [object?, bucket?_setBucket, if_pos rfl, Option.bind_some, KeyMap.get?_erase_self]
  · rw [object?, bucket?_setBucket]
    by_cases hbucket : bucket' = bucket
    · have hkey : key' ≠ key := fun h => hne ⟨hbucket, h⟩
      rw [if_pos hbucket, Option.bind_some, KeyMap.get?_erase_of_ne hkey, hbucket, object?, hb,
        Option.bind_some]
    · rw [if_neg hbucket, object?]
  · rw [bucket?_setBucket]
    by_cases hname : name = bucket
    · rw [if_pos hname, hname, hb]
      simp
    · rw [if_neg hname]

end BucketFs.Store
