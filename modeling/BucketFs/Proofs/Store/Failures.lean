import BucketFs.Proofs.Store.Isolation

/-!
# Calls that fail

* `Regular.answer_unchanged` — a call that fails leaves a store as it was.  Only a completion takes
  something away before it writes; it does not fail behind that, since the bucket of every open
  session is there.
* `Turn.part_before`, `PartsNumbered.replay` — the parts of open sessions are those that were sent,
  so none has the number zero.
* `failed_calls_change_nothing` — both for every history: no failure leaves a trace, and a session
  whose completion was refused is completed by the right part list as before.
-/

namespace BucketFs.Store

variable {s s' : Store} {a : StoreStep} {e : FsError}

/-! ## Unchanged stores -/

theorem delete_unchanged {bucket key : String} (h : (s.delete bucket key).1 = .error e) :
    (s.delete bucket key).2 = s := by
  unfold delete at h ⊢
  cases hb : s.bucket? bucket with
  | none => rfl
  | some b =>
    rw [hb] at h
    cases h

theorem initiate_unchanged {bucket key : String} {acl : Option Acl}
    (h : (s.initiate bucket key acl).1 = .error e) : (s.initiate bucket key acl).2 = s := by
  unfold initiate at h ⊢
  cases hb : s.bucket? bucket with
  | none => rfl
  | some b =>
    rw [hb] at h
    cases h

theorem keepPart_unchanged {handle : UploadHandle} {number : Nat} {range : ByteRange}
    {data : Bytes} (h : (s.keepPart handle number range data).1 = .error e) :
    (s.keepPart handle number range data).2 = s := by
  obtain ⟨e', heq⟩ | ⟨u, etag, s', -, -, heq, -⟩ := keepPart_cases s handle number range data
  · rw [heq]
  · rw [heq] at h
    cases h

theorem copyPart_unchanged {handle : UploadHandle} {number : Nat} {range : ByteRange}
    {sourceBucket sourceKey : String}
    (h : (s.copyPart handle number range sourceBucket sourceKey).1 = .error e) :
    (s.copyPart handle number range sourceBucket sourceKey).2 = s := by
  unfold copyPart at h ⊢
  cases hget : s.get sourceBucket sourceKey (some range) with
  | error e => rfl
  | ok data =>
    rw [hget] at h
    exact keepPart_unchanged h

theorem abort_unchanged {handle : UploadHandle} (h : (s.abort handle).1 = .error e) :
    (s.abort handle).2 = s := by
  obtain ⟨e', heq⟩ | heq := abort_cases s handle
  · rw [heq]
  · rw [heq] at h
    cases h

/-- **A call that fails leaves a store as it was.** -/
theorem Regular.answer_unchanged (hregular : s.Regular) {c : StoreCall}
    (h : (s.answer c).1 = .error e) : (s.answer c).2 = s := by
  cases c with
  | head | list | get | buckets => rfl
  | put bucket key data acl => exact put_unchanged h
  | delete bucket key => exact delete_unchanged h
  | copy sourceBucket sourceKey bucket key acl => exact copy_unchanged h
  | initiate bucket key acl => exact initiate_unchanged h
  | uploadPart handle number range data => exact keepPart_unchanged h
  | copyPart handle number range sourceBucket sourceKey => exact copyPart_unchanged h
  | complete handle parts => exact hregular.objectsKept.complete handle parts e h
  | abort handle => exact abort_unchanged h

/-! ## The parts of open sessions -/

/-- A part of a session after a step was there before it, or the step has sent it. -/
theorem Turn.part_before (hturn : Turn s a s') {id : String} {u' : OpenSession} {number : Nat}
    {part : SentPart} (hu' : s'.uploads.get? id = some u') (hpart : u'.part? number = some part) :
    (∃ u, s.uploads.get? id = some u ∧ u.part? number = some part) ∨
      a.sent? id number s = some part := by
  cases hturn with
  | still uploads _ _ _ =>
    rw [uploads] at hu'
    exact .inl ⟨u', hu', hpart⟩
  | began _ empty uploads _ _ _ =>
    rw [uploads, KeyMap.get?_insert] at hu'
    split at hu'
    · cases hu'
      rw [empty] at hpart
      cases hpart
    · exact .inl ⟨u', hu', hpart⟩
  | @sent id' u sentNumber sentPart session uploads _ sent _ =>
    rw [uploads, KeyMap.get?_insert] at hu'
    split at hu'
    · rename_i hid
      cases hu'
      rw [OpenSession.part?_setPart] at hpart
      split at hpart
      · rename_i hnumber
        right
        rw [sent, if_pos ⟨hid.symm, hnumber.symm⟩, hpart]
      · exact .inl ⟨u, hid ▸ session, hpart⟩
    · exact .inl ⟨u', hu', hpart⟩
  | settled uploads _ _ _ =>
    rw [uploads, KeyMap.get?_erase] at hu'
    split at hu'
    · cases hu'
    · exact .inl ⟨u', hu', hpart⟩

/-- Whether no open session has a part of number zero. -/
def PartsNumbered (s : Store) : Prop := ∀ id u, s.uploads.get? id = some u → u.part? 0 = none

theorem partsNumbered_new (pageLimit : Nat) (now : Timestamp) : (new pageLimit now).PartsNumbered :=
  fun _ _ hu => (Option.some_ne_none _ hu.symm).elim

theorem PartsNumbered.step (h : s.PartsNumbered) (hturn : Turn s a s') : s'.PartsNumbered := by
  intro id u' hu'
  refine Option.eq_none_iff_forall_ne_some.2 fun part hpart => ?_
  rcases hturn.part_before hu' hpart with ⟨u, hu, hbefore⟩ | hsent
  · rw [h id u hu] at hbefore
    cases hbefore
  · exact (accepted_of_sent? hsent).1 rfl

theorem PartsNumbered.replay (h : s.PartsNumbered) (hregular : s.Regular) (steps : List StoreStep) :
    (s.replay steps).PartsNumbered := by
  induction steps generalizing s with
  | nil => exact h
  | cons step rest ih => exact ih (h.step (hregular.turn step)) (hregular.step step)

/-! ## Histories -/

/-- **A call that fails changes nothing**: after every history of a store, whatever the call.  In
particular a refused completion keeps its session with all parts, and the part lists that complete
the session are the same as before. -/
theorem failed_calls_change_nothing (pageLimit : Nat) (now : Timestamp) (steps : List StoreStep) :
    let s := (new pageLimit now).replay steps
    (∀ c e, (s.answer c).1 = .error e → (s.answer c).2 = s) ∧
    ∀ handle refused e u, s.uploads.get? handle.uploadId = some u →
      (s.complete handle refused).1 = .error e →
      (s.complete handle refused).2.uploads.get? handle.uploadId = some u ∧
      (s.complete handle refused).2.SessionContract handle.uploadId u.bucket u.key u.acl
        u.part? := by
  intro s
  have hregular : s.Regular := (regular_new pageLimit now).replay steps
  refine ⟨fun c e h => hregular.answer_unchanged h, fun handle refused e u hu h => ?_⟩
  have hnumbered : s.PartsNumbered :=
    (partsNumbered_new pageLimit now).replay (regular_new pageLimit now) steps
  have hsame : (s.complete handle refused).2 = s :=
    hregular.answer_unchanged (c := .complete handle refused) h
  have hholds : s.Holds handle.uploadId u.bucket u.key u.acl u.part? :=
    ⟨u, hu, rfl, rfl, rfl, fun _ => rfl⟩
  rw [hsame]
  exact ⟨hu, hholds.contract hregular (hnumbered _ u hu)⟩

/-- A completion that leaves a gap is refused, and the session is completed without the part behind
the gap. -/
theorem failed_calls_change_nothing_gap :
    let handle : UploadHandle := ⟨"b", "k", uploadId 0⟩
    let s := (new 1000 .epoch).replay [.makeBucket "b", .call (.initiate "b" "k" none),
      .call (.uploadPart handle 1 ⟨0, 1⟩ [7]), .call (.uploadPart handle 2 ⟨2, 3⟩ [8])]
    let refused := [⟨1, Etag.ofContent [7]⟩, ⟨2, Etag.ofContent [8]⟩]
    let s' := (s.complete handle refused).2
    (s.complete handle refused).1 = .error (.invalidArgument (.partOffset 2 2 1)) ∧ s' = s ∧
      (s'.complete handle [⟨1, Etag.ofContent [7]⟩]).1 = .ok () ∧
      (s'.complete handle [⟨1, Etag.ofContent [7]⟩]).2.content? "b" "k" = some [7] := by
  intro handle s refused s'
  have hrefused : (s.complete handle refused).1 =
      .error (.invalidArgument (.partOffset 2 2 1)) := by decide +kernel
  obtain ⟨hunchanged, hsession⟩ := failed_calls_change_nothing 1000 .epoch
    [.makeBucket "b", .call (.initiate "b" "k" none),
      .call (.uploadPart handle 1 ⟨0, 1⟩ [7]), .call (.uploadPart handle 2 ⟨2, 3⟩ [8])]
  let u : OpenSession := ⟨"b", "k", .byDefault, [(2, ⟨⟨2, 3⟩, [8], Etag.ofContent [8]⟩),
    (1, ⟨⟨0, 1⟩, [7], Etag.ofContent [7]⟩)]⟩
  have hu : s.uploads.get? handle.uploadId = some u := by decide +kernel
  obtain ⟨-, hcontract⟩ := hsession handle refused _ u hu hrefused
  have hassembles : Assembles u.part? [⟨1, Etag.ofContent [7]⟩]
      [⟨⟨0, 1⟩, [7], Etag.ofContent [7]⟩] :=
    ⟨by decide, by decide, .cons ⟨rfl, rfl⟩ .nil, rfl, trivial⟩
  exact ⟨hrefused, hunchanged (.complete handle refused) _ hrefused,
    (hcontract.completes handle _ rfl).2 ⟨_, hassembles⟩,
    (hcontract.writes handle _ _ rfl hassembles).content⟩

end BucketFs.Store
