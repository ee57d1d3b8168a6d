import BucketFs.Proofs.Store.Touched
import BucketFs.Proofs.Text.Names

/-!
# Stores with canonical keys

* `CanonicalKey` — one or more names, joined, with at most one separator behind them.
* `Store.WellKeyed` — a store all of whose keys are canonical.
* `Call.Writes` — a call that, if it reaches a store and succeeds, stores objects under good keys
  only; deleting stores nothing.
* `Handler.Serves.wellKeyed_call` — such a call keeps a store well-keyed, whatever it is answered.
-/

namespace BucketFs

open BucketFs.Text

/-- Whether a key consists of names, one at least, with at most one separator behind them. -/
def CanonicalKey (k : String) : Prop :=
  ∃ ns : List String, ns ≠ [] ∧ (∀ n ∈ ns, IsName n) ∧ (k = joined ns ∨ k = joined ns ++ slash)

theorem canonicalKey_joined {ns : List String} (hne : ns ≠ []) (hns : ∀ n ∈ ns, IsName n) :
    CanonicalKey (joined ns) :=
  ⟨ns, hne, hns, .inl rfl⟩

theorem canonicalKey_marker {ns : List String} (hne : ns ≠ []) (hns : ∀ n ∈ ns, IsName n) :
    CanonicalKey (joined ns ++ slash) :=
  ⟨ns, hne, hns, .inr rfl⟩

/-- The empty key is not canonical. -/
theorem not_canonicalKey_empty : ¬ CanonicalKey "" := by
  rintro ⟨ns, hne, hns, hempty | hempty⟩
  · exact hne ((joined_eq_empty_iff hns).1 hempty.symm)
  · have hends := endsInSeparator_append_slash (joined ns)
    rw [← hempty] at hends
    revert hends
    decide

/-- The object that a call stores when it succeeds. -/
def StoreCall.stored? (c : StoreCall) (s : Store) : Option (String × String) :=
  match c with
  | .delete _ _ => none
  | c => c.touched? s

theorem StoreCall.touched?_of_stored? {c : StoreCall} {s : Store} {place : String × String}
    (h : c.stored? s = some place) : c.touched? s = some place := by
  cases c with
  | delete => cases h
  | _ => exact h

namespace Store

/-- Whether all keys of a store are canonical. -/
def WellKeyed (s : Store) : Prop :=
  ∀ bucket key o, s.object? bucket key = some o → CanonicalKey key

variable {s : Store} {bucket key : String}

/-- The keys of its buckets are canonical. -/
theorem WellKeyed.canonical {b : Bucket} (h : s.WellKeyed) (hb : s.bucket? bucket = some b)
    (hk : key ∈ b.keys) : CanonicalKey key := by
  obtain ⟨o, ho⟩ := (mem_keys_iff hb).1 hk
  exact h bucket key o ho

theorem wellKeyed_new (pageLimit : Nat) (now : Timestamp) : (new pageLimit now).WellKeyed :=
  fun _ _ _ ho => (Option.some_ne_none _ ho.symm).elim

theorem WellKeyed.setBucket (h : s.WellKeyed) {b : Bucket} (hb : ∀ k ∈ b.keys, CanonicalKey k) :
    (s.setBucket bucket b).WellKeyed := by
  intro bucket' key o ho
  rw [object?, bucket?_setBucket] at ho
  split at ho
  · exact hb key (KeyMap.mem_keys_iff.2 ⟨o, ho⟩)
  · exact h bucket' key o ho

theorem WellKeyed.makeBucket (h : s.WellKeyed) (bucket : String) :
    (s.makeBucket bucket).WellKeyed := by
  unfold Store.makeBucket
  split
  · exact h
  · exact h.setBucket fun k hk => (List.not_mem_nil hk).elim

theorem delete_self (s : Store) (bucket key : String) :
    (s.delete bucket key).2.object? bucket key = none := by
  cases hb : s.bucket? bucket with
  | none => rw [delete, hb, object?, hb, Option.bind_none]
  | some b =>
    rw [delete, hb]
    dsimp only
    rw [object?, bucket?_setBucket, if_pos rfl, Option.bind_some, KeyMap.get?_erase_self]

/-- A put that succeeds stores an object. -/
theorem put_stored {data : Bytes} {acl : Option Acl} {etag : String}
    (h : (s.put bucket key data acl).1 = .ok etag) :
    ∃ o, (s.put bucket key data acl).2.object? bucket key = some o := by
  unfold put at h ⊢
  dsimp only at h ⊢
  cases hb : s.bucket? bucket with
  | none =>
    rw [write, hb] at h
    cases h
  | some b =>
    rw [write_eq_ok hb]
    exact ⟨_, (object?_setBucket_insert hb key _ bucket key).trans (if_pos ⟨rfl, rfl⟩)⟩

/-- A call that fails leaves the object alone that it would have stored. -/
theorem answer_error_buckets {c : StoreCall} {place : String × String} {e : FsError}
    (hstored : c.stored? s = some place) (herror : (s.answer c).1 = .error e) :
    (s.answer c).2.buckets = s.buckets := by
  cases c with
  | put => exact congrArg Store.buckets (put_unchanged herror)
  | copy => exact congrArg Store.buckets (copy_unchanged herror)
  | complete => exact (complete_sameBut herror).buckets
  | _ => cases hstored

/-- **What is stored after a call** was stored before, or the call succeeds and stores it. -/
theorem answer_stored {c : StoreCall} {o : ObjectRecord}
    (h : (s.answer c).2.object? bucket key = some o) :
    s.object? bucket key = some o ∨
      (∃ v, (s.answer c).1 = .ok v) ∧ c.stored? s = some (bucket, key) := by
  by_cases htouched : c.touched? s = some (bucket, key)
  · cases hstored : c.stored? s with
    | none =>
      -- the call deletes what it touches
      cases c with
      | delete bucket' key' =>
        cases htouched
        have hnone := delete_self s bucket key
        rw [show (s.answer (.delete bucket key)).2 = (s.delete bucket key).2 from rfl, hnone] at h
        cases h
      | _ => exact nomatch htouched.symm.trans hstored
    | some place =>
      obtain rfl := Option.some.inj
        ((StoreCall.touched?_of_stored? hstored).symm.trans htouched)
      cases hreply : (s.answer c).1 with
      | ok v => exact .inr ⟨⟨v, rfl⟩, rfl⟩
      | error e =>
        rw [object?_congr (answer_error_buckets hstored hreply)] at h
        exact .inl h
  · rw [answer_object? htouched] at h
    exact .inl h

end Store

variable {σ : Type} {h : Handler σ} {reaches : Access → Prop} {view : σ → Store}
  {good : String → Prop}

/-- Whether a call that reaches a store and succeeds stores objects under good keys only. -/
def Call.Writes (h : Handler σ) (reaches : Access → Prop) (view : σ → Store)
    (good : String → Prop) : Call → σ → Prop
  | .store through c, s => reaches through → (∃ v, (h (.store through c) s).1 = .ok v) →
    ∀ bucket key, c.stored? (view s) = some (bucket, key) → good key
  | .file _, _ => True

/-- A call that touches only objects under good keys. -/
theorem Call.Within.writes {may : ObjectSet}
    (hgood : ∀ through bucket key, may through bucket key → good key) (c : Call) (s : σ)
    (hc : c.Within reaches view may s) : c.Writes h reaches view good s := by
  cases c with
  | store through c =>
    intro hreach _ bucket key hstored
    exact hgood _ _ _ (hc hreach bucket key (StoreCall.touched?_of_stored? hstored))
  | file c => trivial

/-- **A call that stores under canonical keys** keeps a store well-keyed. -/
theorem Handler.Serves.wellKeyed_call (hserves : h.Serves reaches view) (c : Call) (s : σ)
    (hc : c.Writes h reaches view CanonicalKey s) (hs : (view s).WellKeyed) :
    (view (h c s).2).WellKeyed := by
  cases c with
  | file c =>
    rw [hserves.file]
    exact hs
  | store through c =>
    by_cases hreach : reaches through
    · rcases hserves.reached through c s hreach with ⟨hreply, hview⟩ | ⟨-, hview⟩
      · rw [hview]
        intro bucket key o ho
        rcases Store.answer_stored ho with hbefore | ⟨⟨v, hv⟩, hstored⟩
        · exact hs bucket key o hbefore
        · exact hc hreach ⟨v, hreply.trans hv⟩ bucket key hstored
      · rw [hview]
        exact hs
    · rw [hserves.apart through c s hreach]
      exact hs

end BucketFs
