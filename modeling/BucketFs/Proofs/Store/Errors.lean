import BucketFs.Store.Answer

/-!
# The errors of a store in memory

* `Store.answers_of_error` — a store in memory reports what is missing and what is wrong with a
  request, and nothing else.
* `Store.answer_ne_internal` — so it has no internal faults.
-/

namespace BucketFs

namespace Store

/-- The errors of a store in memory. -/
def Answers (e : FsError) : Prop := e.isMissing = true ∨ ∃ fault, e = .invalidArgument fault

variable {s : Store} {bucket key : String} {e : FsError}

theorem answers_find (h : s.find bucket key = .error e) : Answers e := by
  unfold find at h
  split at h
  · cases h
    exact .inl rfl
  · split at h
    · cases h
      exact .inl rfl
    · cases h

theorem answers_get {range : Option ByteRange} (h : s.get bucket key range = .error e) :
    Answers e := by
  unfold get at h
  split at h
  · rename_i hfind
    cases h
    exact answers_find hfind
  · split at h
    · cases h
    · split at h
      · cases h
        exact .inr ⟨_, rfl⟩
      · cases h

theorem answers_write {o : ObjectRecord} (h : (s.write bucket key o).1 = .error e) : Answers e := by
  unfold write at h
  split at h
  · cases h
    exact .inl rfl
  · cases h

theorem answers_list {r : ListQuery} (h : s.list r = .error e) : Answers e := by
  have hdecode : ∀ {token : String} {e : FsError}, Token.decode token = .error e → Answers e := by
    intro token e hdecode
    unfold Token.decode at hdecode
    split at hdecode
    · cases hdecode
      exact .inr ⟨_, rfl⟩
    · split at hdecode
      · cases hdecode
        exact .inr ⟨_, rfl⟩
      · cases hdecode
  unfold list at h
  cases htoken : r.token with
  | none =>
    simp only [htoken, bind, Except.bind] at h
    split at h
    · cases h
      exact .inl rfl
    · cases h
  | some token =>
    simp only [htoken, bind, Except.bind] at h
    cases hmarker : Token.decode token with
    | error e' =>
      rw [hmarker] at h
      cases h
      exact hdecode hmarker
    | ok marker =>
      rw [hmarker] at h
      simp only [Except.map] at h
      split at h
      · cases h
        exact .inl rfl
      · cases h

theorem answers_keepPart {handle : UploadHandle} {number : Nat} {range : ByteRange} {data : Bytes}
    (h : (s.keepPart handle number range data).1 = .error e) : Answers e := by
  unfold keepPart at h
  split at h
  · cases h
    exact .inr ⟨_, rfl⟩
  · split at h
    · cases h
      exact .inr ⟨_, rfl⟩
    · split at h
      · cases h
        exact .inl rfl
      · cases h

theorem answers_selectParts {u : OpenSession} {parts : List FinishedPart} :
    ∀ {previous offset : Nat}, selectParts u previous offset parts = .error e → Answers e := by
  induction parts with
  | nil =>
    intro previous offset h
    cases h
  | cons p rest ih =>
    intro previous offset h
    rw [selectParts] at h
    split at h
    · cases h
      exact .inr ⟨_, rfl⟩
    · split at h
      · cases h
        exact .inr ⟨_, rfl⟩
      · split at h
        · cases h
          exact .inr ⟨_, rfl⟩
        · split at h
          · cases h
            exact .inr ⟨_, rfl⟩
          · cases hrest : selectParts u p.number _ rest with
            | error e' =>
              rw [hrest] at h
              cases h
              exact ih hrest
            | ok chosen =>
              rw [hrest] at h
              cases h

theorem answers_complete {handle : UploadHandle} {parts : List FinishedPart}
    (h : (s.complete handle parts).1 = .error e) : Answers e := by
  unfold complete at h
  split at h
  · cases h
    exact .inl rfl
  · rename_i u _
    cases hassemble : assemble u parts with
    | ok chosen =>
      rw [hassemble] at h
      exact answers_write h
    | error e' =>
      rw [hassemble] at h
      cases h
      unfold assemble at hassemble
      split at hassemble
      · cases hassemble
        exact .inr ⟨_, rfl⟩
      · cases hchosen : selectParts u 0 0 parts with
        | ok chosen =>
          rw [hchosen] at hassemble
          cases hassemble
        | error e' =>
          rw [hchosen] at hassemble
          cases hassemble
          exact answers_selectParts hchosen

/-- **A store in memory** answers a call, or reports what is missing or wrong with the request. -/
theorem answers_of_error {c : StoreCall} (h : (s.answer c).1 = .error e) : Answers e := by
  cases c with
  | head bucket key =>
    have hfind : s.find bucket key = .error e := by
      simp only [answer, head] at h
      cases hfind : s.find bucket key with
      | error e' =>
        rw [hfind] at h
        cases h
        rfl
      | ok o =>
        rw [hfind] at h
        cases h
    exact answers_find hfind
  | list request => exact answers_list h
  | get bucket key range => exact answers_get h
  | put bucket key data acl =>
    simp only [answer, put] at h
    split at h
    · cases h
    · rename_i hwrite
      cases h
      exact answers_write (congrArg Prod.fst hwrite)
  | delete bucket key =>
    simp only [answer, delete] at h
    split at h
    · cases h
      exact .inl rfl
    · cases h
  | copy sourceBucket sourceKey bucket key acl =>
    simp only [answer, copy] at h
    split at h
    · rename_i hfind
      cases h
      exact answers_find hfind
    · exact answers_write h
  | buckets => cases h
  | initiate bucket key acl =>
    simp only [answer, initiate] at h
    split at h
    · cases h
      exact .inl rfl
    · cases h
  | uploadPart handle number range data => exact answers_keepPart h
  | copyPart handle number range sourceBucket sourceKey =>
    simp only [answer, copyPart] at h
    split at h
    · rename_i hget
      cases h
      exact answers_get hget
    · exact answers_keepPart h
  | complete handle parts => exact answers_complete h
  | abort handle =>
    simp only [answer, abort] at h
    split at h
    · cases h
      exact .inl rfl
    · cases h

/-- **No fault is internal** to a store in memory. -/
theorem answer_ne_internal (c : StoreCall) (s : Store) (fault : InternalFault) :
    (s.answer c).1 ≠ .error (.internal fault) := by
  intro h
  rcases answers_of_error h with hmissing | ⟨fault, hfault⟩
  · cases hmissing
  · cases hfault

end Store

end BucketFs
