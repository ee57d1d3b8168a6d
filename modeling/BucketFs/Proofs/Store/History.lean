import BucketFs.Bytes.Hex
import BucketFs.Proofs.Store.Objects
import BucketFs.Proofs.Store.Sessions
import BucketFs.Proofs.Transfer.Assembly

/-!
# The history of one session

A store takes calls of many sessions and other operations in any order.  The steps that send parts
to one session, read out of the history, say what the session holds.

* `Store.uploadId_inj` — no two sessions have the same upload id.
* `StoreStep`, `Store.replay` — what is done to a store, step after step.
* `StoreStep.sent?`, `Store.lastSent?` — the part of a number that a step sends to a session, and
  the latest one of a history.
* `StoreStep.Settles`, `Store.Settled` — the completions and abortions of a session that succeed.
* `Store.Holds.step`, `Store.Holds.replay` — what one step and a history do to an open session.
-/

namespace BucketFs

/-! ## Upload ids -/

namespace Store

/-- The number that digits write; what is no digit counts as zero. -/
def hexNumber (digits : List Char) : Nat :=
  digits.foldl (fun n c => 16 * n + (Bytes.Hex.value? c).getD 0) 0

theorem hexNumber_append_digit (digits : List Char) {d : Nat} (hd : d < 16) :
    hexNumber (digits ++ [Nat.digitChar d]) = 16 * hexNumber digits + d := by
  have hvalue : ∀ d < 16, (Bytes.Hex.value? (Nat.digitChar d)).getD 0 = d := by decide
  rw [hexNumber, List.foldl_append, List.foldl_cons, List.foldl_nil, hvalue d hd, hexNumber]

theorem hexNumber_toDigits (n : Nat) : hexNumber (Nat.toDigits 16 n) = n := by
  induction n using Nat.strongRecOn with
  | ind n ih =>
    rw [Nat.toDigits_eq_if (by decide)]
    split
    · rename_i hlt
      rw [← List.nil_append [Nat.digitChar n], hexNumber_append_digit [] hlt]
      simp [hexNumber]
    · rename_i hge
      rw [hexNumber_append_digit _ (Nat.mod_lt n (by decide)), ih (n / 16) (by omega)]
      omega

/-- Leading zeros do not count. -/
theorem hexNumber_zeros (k : Nat) (digits : List Char) :
    hexNumber (List.replicate k '0' ++ digits) = hexNumber digits := by
  have hzeros : (List.replicate k '0').foldl
      (fun n c => 16 * n + (Bytes.Hex.value? c).getD 0) 0 = 0 := by
    induction k with
    | zero => rfl
    | succ k ih =>
      rw [List.replicate_succ, List.foldl_cons]
      exact ih
  rw [hexNumber, List.foldl_append, hzeros, hexNumber]

/-- **Upload ids are not repeated.** -/
theorem uploadId_inj {m n : Nat} (h : uploadId m = uploadId n) : m = n := by
  have hdigits := congrArg (fun id => hexNumber id.toList) h
  simpa only [uploadId, String.toList_ofList, hexNumber_zeros, hexNumber_toDigits] using hdigits

end Store

/-! ## Steps -/

/-- One thing that is done to a store. -/
inductive StoreStep where
  | call (c : StoreCall)
  | makeBucket (bucket : String)
  | addObject (bucket key : String) (data : Bytes)
  | addMarker (bucket key : String)
  /-- Time passes. -/
  | clock (now : Timestamp)
  deriving DecidableEq, Repr

namespace Store

/-- The store after a step. -/
def step (s : Store) : StoreStep → Store
  | .call c => (s.answer c).2
  | .makeBucket bucket => s.makeBucket bucket
  | .addObject bucket key data => s.addObject bucket key data
  | .addMarker bucket key => s.addMarker bucket key
  | .clock now => { s with now }

/-- The store after some steps. -/
def replay (s : Store) (steps : List StoreStep) : Store := steps.foldl step s

theorem replay_append (s : Store) (earlier later : List StoreStep) :
    s.replay (earlier ++ later) = (s.replay earlier).replay later :=
  List.foldl_append

end Store

namespace StoreStep

/-- The part of a number that a step sends to a session, if it does: with the bytes that the call
carries, or those that the source has at the time of the call. -/
def sent? (id : String) (number : Nat) (s : Store) : StoreStep → Option SentPart
  | .call (.uploadPart handle n range data) =>
    if handle.uploadId = id ∧ n = number then
      match (s.keepPart handle n range data).1 with
      | .ok etag => some ⟨range, data, etag⟩
      | .error _ => none
    else none
  | .call (.copyPart handle n range sourceBucket sourceKey) =>
    if handle.uploadId = id ∧ n = number then
      match s.get sourceBucket sourceKey (some range),
          (s.copyPart handle n range sourceBucket sourceKey).1 with
      | .ok data, .ok etag => some ⟨range, data, etag⟩
      | _, _ => none
    else none
  | _ => none

/-- Whether a step completes or aborts a session, and succeeds. -/
def Settles (id : String) (s : Store) : StoreStep → Prop
  | .call (.complete handle parts) => handle.uploadId = id ∧ (s.complete handle parts).1 = .ok ()
  | .call (.abort handle) => handle.uploadId = id ∧ (s.abort handle).1 = .ok ()
  | _ => False

end StoreStep

namespace Store

/-- The latest part of a number that steps send to a session. -/
def lastSent? (id : String) (number : Nat) : Store → List StoreStep → Option SentPart
  | _, [] => none
  | s, step :: rest => (lastSent? id number (s.step step) rest).or (step.sent? id number s)

/-- Whether a session is completed or aborted in the course of some steps. -/
def Settled (id : String) : Store → List StoreStep → Prop
  | _, [] => False
  | s, step :: rest => step.Settles id s ∨ Settled id (s.step step) rest

/-! ## What a step does to the sessions -/

/-- All that a step can do to the open sessions of a store. -/
inductive Turn (s : Store) : StoreStep → Store → Prop
  /-- It leaves them as they are. -/
  | still {step : StoreStep} {s' : Store} (uploads : s'.uploads = s.uploads)
      (opened : s'.opened = s.opened) (unsent : ∀ id number, step.sent? id number s = none)
      (unsettled : ∀ id, ¬ step.Settles id s) : Turn s step s'
  /-- It opens a session under a new upload id, without parts. -/
  | began {step : StoreStep} {s' : Store} {u : OpenSession} {b : Bucket}
      (placed : s.bucket? u.bucket = some b) (empty : ∀ number, u.part? number = none)
      (uploads : s'.uploads = s.uploads.insert (uploadId s.opened) u)
      (opened : s'.opened = s.opened + 1) (unsent : ∀ id number, step.sent? id number s = none)
      (unsettled : ∀ id, ¬ step.Settles id s) : Turn s step s'
  /-- It sends a part to a session. -/
  | sent {step : StoreStep} {s' : Store} {id : String} {u : OpenSession} {number : Nat}
      {part : SentPart} (session : s.uploads.get? id = some u)
      (uploads : s'.uploads = s.uploads.insert id (u.setPart number part))
      (opened : s'.opened = s.opened)
      (sent : ∀ id' number', step.sent? id' number' s =
        if id = id' ∧ number = number' then some part else none)
      (unsettled : ∀ id, ¬ step.Settles id s) : Turn s step s'
  /-- It completes or aborts a session. -/
  | settled {step : StoreStep} {s' : Store} {id : String}
      (uploads : s'.uploads = s.uploads.erase id) (opened : s'.opened = s.opened)
      (unsent : ∀ id number, step.sent? id number s = none)
      (settles : ∀ id', step.Settles id' s ↔ id' = id) : Turn s step s'

theorem write_uploads (s : Store) (bucket key : String) (o : ObjectRecord) :
    (s.write bucket key o).2.uploads = s.uploads ∧ (s.write bucket key o).2.opened = s.opened := by
  unfold write
  split <;> exact ⟨rfl, rfl⟩

theorem put_uploads (s : Store) (bucket key : String) (data : Bytes) (acl : Option Acl) :
    (s.put bucket key data acl).2.uploads = s.uploads ∧
      (s.put bucket key data acl).2.opened = s.opened := by
  have h := write_uploads s bucket key (s.stamp data (Etag.ofContent data) (acl.getD .byDefault))
  unfold put
  dsimp only
  split <;> rename_i heq <;> rwa [heq] at h

theorem delete_uploads (s : Store) (bucket key : String) :
    (s.delete bucket key).2.uploads = s.uploads ∧ (s.delete bucket key).2.opened = s.opened := by
  unfold delete
  split <;> exact ⟨rfl, rfl⟩

theorem copy_uploads (s : Store) (sourceBucket sourceKey bucket key : String) (acl : Option Acl) :
    (s.copy sourceBucket sourceKey bucket key acl).2.uploads = s.uploads ∧
      (s.copy sourceBucket sourceKey bucket key acl).2.opened = s.opened := by
  unfold copy
  split
  · exact ⟨rfl, rfl⟩
  · exact write_uploads s _ _ _

theorem makeBucket_uploads (s : Store) (bucket : String) :
    (s.makeBucket bucket).uploads = s.uploads ∧ (s.makeBucket bucket).opened = s.opened := by
  unfold makeBucket
  split <;> exact ⟨rfl, rfl⟩

/-- What keeping a part comes to. -/
theorem keepPart_cases (s : Store) (handle : UploadHandle) (number : Nat) (range : ByteRange)
    (data : Bytes) :
    (∃ e, s.keepPart handle number range data = (.error e, s)) ∨
      ∃ u etag s', number ≠ 0 ∧ s.uploads.get? handle.uploadId = some u ∧
        s.keepPart handle number range data = (.ok etag, s') ∧
        s'.uploads = s.uploads.insert handle.uploadId (u.setPart number ⟨range, data, etag⟩) ∧
        s'.opened = s.opened := by
  unfold keepPart
  split
  · exact .inl ⟨_, rfl⟩
  · rename_i hnumber
    split
    · exact .inl ⟨_, rfl⟩
    · split
      · exact .inl ⟨_, rfl⟩
      · rename_i u hu
        exact .inr ⟨u, _, _, hnumber, hu, rfl, rfl, rfl⟩

/-- Whether every open session has a number that was given out, and a bucket that is there. -/
structure Regular (s : Store) : Prop where
  numbered : ∀ id u, s.uploads.get? id = some u → ∃ n < s.opened, id = uploadId n
  placed : ∀ id u, s.uploads.get? id = some u → ∃ b, s.bucket? u.bucket = some b

theorem regular_new (pageLimit : Nat) (now : Timestamp) : (new pageLimit now).Regular :=
  ⟨fun _ _ hu => (Option.some_ne_none _ hu.symm).elim,
    fun _ _ hu => (Option.some_ne_none _ hu.symm).elim⟩

variable {s s' : Store} {a : StoreStep}

/-- The next number has not been given out. -/
theorem Regular.erase_next (h : s.Regular) : s.uploads.erase (uploadId s.opened) = s.uploads := by
  refine KeyMap.erase_of_get?_eq_none (Option.eq_none_iff_forall_ne_some.2 fun u hu => ?_)
  obtain ⟨n, hn, hid⟩ := h.numbered _ u hu
  exact Nat.ne_of_gt hn (uploadId_inj hid)

/-- What completing a session comes to, where its bucket is there. -/
theorem Regular.complete_cases (h : s.Regular) (handle : UploadHandle) (parts : List FinishedPart) :
    (∃ e, (∀ u, s.uploads.get? handle.uploadId = some u → assemble u parts = .error e) ∧
      s.complete handle parts = (.error e, s)) ∨
    ∃ u data etag b, s.uploads.get? handle.uploadId = some u ∧
      assemble u parts = .ok (data, etag) ∧ s.bucket? u.bucket = some b ∧
      s.complete handle parts = (.ok (), { s with uploads := s.uploads.erase handle.uploadId
        }.setBucket u.bucket (b.insert u.key (s.stamp data etag u.acl))) := by
  unfold complete
  cases hu : s.uploads.get? handle.uploadId with
  | none => exact .inl ⟨_, nofun, rfl⟩
  | some u =>
    dsimp only
    cases hassemble : assemble u parts with
    | error e => exact .inl ⟨e, fun _ hu' => Option.some.inj hu' ▸ hassemble, rfl⟩
    | ok content =>
      obtain ⟨data, etag⟩ := content
      obtain ⟨b, hb⟩ := h.placed handle.uploadId u hu
      have hb' : ({ s with uploads := s.uploads.erase handle.uploadId } : Store).bucket? u.bucket =
          some b := hb
      exact .inr ⟨u, data, etag, b, rfl, hassemble, hb, write_eq_ok hb' _ _⟩

theorem abort_cases (s : Store) (handle : UploadHandle) :
    (∃ e, s.abort handle = (.error e, s)) ∨
      s.abort handle = (.ok (), { s with uploads := s.uploads.erase handle.uploadId }) := by
  unfold abort
  split
  · exact .inl ⟨_, rfl⟩
  · exact .inr rfl

/-- **What a step does to the sessions of a store.** -/
theorem Regular.turn (h : s.Regular) (step : StoreStep) : Turn s step (s.step step) := by
  cases step with
  | makeBucket bucket =>
    obtain ⟨huploads, hopened⟩ := makeBucket_uploads s bucket
    exact .still huploads hopened (fun _ _ => rfl) fun _ => id
  | addObject | addMarker | clock => exact .still rfl rfl (fun _ _ => rfl) fun _ => id
  | call c =>
    cases c with
    | head | list | get | buckets => exact .still rfl rfl (fun _ _ => rfl) fun _ => id
    | put bucket key data acl =>
      obtain ⟨huploads, hopened⟩ := put_uploads s bucket key data acl
      exact .still huploads hopened (fun _ _ => rfl) fun _ => id
    | delete bucket key =>
      obtain ⟨huploads, hopened⟩ := delete_uploads s bucket key
      exact .still huploads hopened (fun _ _ => rfl) fun _ => id
    | copy sourceBucket sourceKey bucket key acl =>
      obtain ⟨huploads, hopened⟩ := copy_uploads s sourceBucket sourceKey bucket key acl
      exact .still huploads hopened (fun _ _ => rfl) fun _ => id
    | initiate bucket key acl =>
      rw [Store.step, answer, initiate]
      cases hb : s.bucket? bucket with
      | none => exact .still rfl rfl (fun _ _ => rfl) fun _ => id
      | some b =>
        exact .began (u := { bucket, key, acl := acl.getD .byDefault }) hb (fun _ => rfl) rfl rfl
          (fun _ _ => rfl) fun _ => id
    | uploadPart handle number range data =>
      rw [Store.step, answer]
      obtain ⟨e, heq⟩ | ⟨u, etag, s', -, hu, heq, huploads, hopened⟩ :=
        keepPart_cases s handle number range data
      · rw [heq]
        refine .still rfl rfl (fun id number' => ?_) fun _ => id
        simp [StoreStep.sent?, heq]
      · rw [heq]
        refine .sent hu huploads hopened (fun id number' => ?_) fun _ => id
        simp [StoreStep.sent?, heq]
    | copyPart handle number range sourceBucket sourceKey =>
      rw [Store.step, answer]
      cases hget : s.get sourceBucket sourceKey (some range) with
      | error e =>
        have heq : s.copyPart handle number range sourceBucket sourceKey = (.error e, s) := by
          rw [copyPart, hget]
        rw [heq]
        refine .still rfl rfl (fun id number' => ?_) fun _ => id
        simp [StoreStep.sent?, hget]
      | ok data =>
        have hcopy : s.copyPart handle number range sourceBucket sourceKey =
            s.keepPart handle number range data := by
          rw [copyPart, hget]
        obtain ⟨e, heq⟩ | ⟨u, etag, s', -, hu, heq, huploads, hopened⟩ :=
          keepPart_cases s handle number range data
        · rw [hcopy, heq]
          refine .still rfl rfl (fun id number' => ?_) fun _ => id
          simp [StoreStep.sent?, hget, hcopy, heq]
        · rw [hcopy, heq]
          refine .sent hu huploads hopened (fun id number' => ?_) fun _ => id
          simp [StoreStep.sent?, hget, hcopy, heq]
    | complete handle parts =>
      rw [Store.step, answer]
      obtain ⟨e, -, heq⟩ | ⟨u, data, etag, b, -, -, -, heq⟩ := h.complete_cases handle parts
      · rw [heq]
        refine .still rfl rfl (fun _ _ => rfl) fun id hsettles => ?_
        have hok := hsettles.2
        rw [heq] at hok
        cases hok
      · rw [heq]
        refine .settled rfl rfl (fun _ _ => rfl) fun id => ?_
        simp [StoreStep.Settles, heq, eq_comm]
    | abort handle =>
      rw [Store.step, answer]
      obtain ⟨e, heq⟩ | heq := abort_cases s handle
      · rw [heq]
        refine .still rfl rfl (fun _ _ => rfl) fun id hsettles => ?_
        have hok := hsettles.2
        rw [heq] at hok
        cases hok
      · rw [heq]
        refine .settled rfl rfl (fun _ _ => rfl) fun id => ?_
        simp [StoreStep.Settles, heq, eq_comm]

/-- A step keeps every bucket. -/
theorem step_bucket_stays (s : Store) (step : StoreStep) {name : String} {b : Bucket}
    (hb : s.bucket? name = some b) : ∃ b', (s.step step).bucket? name = some b' := by
  have hset : ∀ (bucket : String) (b' : Bucket), ∃ b'', (s.setBucket bucket b').bucket? name =
      some b'' := by
    intro bucket b'
    rw [bucket?_setBucket]
    split
    · exact ⟨b', rfl⟩
    · exact ⟨b, hb⟩
  cases step with
  | call c => exact (answer_change c s).bucket_stays hb
  | makeBucket bucket =>
    rw [Store.step, makeBucket]
    split
    · exact ⟨b, hb⟩
    · exact hset bucket _
  | addObject bucket key data => exact hset bucket _
  | addMarker bucket key => exact hset bucket _
  | clock now => exact ⟨b, hb⟩

/-- Steps give out upload ids one after the other. -/
theorem Turn.opened_le (hturn : Turn s a s') : s.opened ≤ s'.opened := by
  cases hturn with
  | still _ opened _ _ => exact Nat.le_of_eq opened.symm
  | began _ _ _ opened _ _ => rw [opened]; exact Nat.le_succ _
  | sent _ _ opened _ _ => exact Nat.le_of_eq opened.symm
  | settled _ opened _ _ => exact Nat.le_of_eq opened.symm

/-- A session after a step was there before it, with the same target, or has just begun. -/
theorem Turn.session_before (hturn : Turn s a s') {id : String} {u' : OpenSession}
    (hu' : s'.uploads.get? id = some u') :
    (∃ u, s.uploads.get? id = some u ∧ u'.bucket = u.bucket) ∨
      (id = uploadId s.opened ∧ s'.opened = s.opened + 1 ∧ ∃ b, s.bucket? u'.bucket = some b) := by
  cases hturn with
  | still uploads _ _ _ =>
    rw [uploads] at hu'
    exact .inl ⟨u', hu', rfl⟩
  | began placed _ uploads opened _ _ =>
    rw [uploads, KeyMap.get?_insert] at hu'
    split at hu'
    · rename_i hid
      cases hu'
      exact .inr ⟨hid, opened, _, placed⟩
    · exact .inl ⟨u', hu', rfl⟩
  | sent session uploads _ _ _ =>
    rw [uploads, KeyMap.get?_insert] at hu'
    split at hu'
    · rename_i hid
      cases hu'
      rw [hid]
      exact .inl ⟨_, session, rfl⟩
    · exact .inl ⟨u', hu', rfl⟩
  | settled uploads _ _ _ =>
    rw [uploads, KeyMap.get?_erase] at hu'
    split at hu'
    · cases hu'
    · exact .inl ⟨u', hu', rfl⟩

/-- **Steps keep sessions numbered and placed.** -/
theorem Regular.step (h : s.Regular) (step : StoreStep) : (s.step step).Regular := by
  have hturn := h.turn step
  refine ⟨fun id u' hu' => ?_, fun id u' hu' => ?_⟩
  · rcases hturn.session_before hu' with ⟨u, hu, -⟩ | ⟨rfl, hopened, -⟩
    · obtain ⟨n, hn, rfl⟩ := h.numbered id u hu
      exact ⟨n, Nat.lt_of_lt_of_le hn hturn.opened_le, rfl⟩
    · exact ⟨s.opened, by rw [hopened]; exact Nat.lt_succ_self _, rfl⟩
  · have hplaced : ∃ b, s.bucket? u'.bucket = some b := by
      rcases hturn.session_before hu' with ⟨u, hu, hbucket⟩ | ⟨-, -, hplaced⟩
      · rw [hbucket]
        exact h.placed id u hu
      · exact hplaced
    obtain ⟨b, hb⟩ := hplaced
    exact step_bucket_stays s step hb

theorem Regular.replay (h : s.Regular) (steps : List StoreStep) : (s.replay steps).Regular := by
  induction steps generalizing s with
  | nil => exact h
  | cons step rest ih => exact ih (h.step step)

/-! ## One session through a history -/

/-- Whether a session is open for an object, with the given parts. -/
def Holds (s : Store) (id bucket key : String) (acl : Acl) (parts : Nat → Option SentPart) : Prop :=
  ∃ u, s.uploads.get? id = some u ∧ u.bucket = bucket ∧ u.key = key ∧ u.acl = acl ∧
    ∀ number, u.part? number = parts number

section Holds

variable {n : Nat} {bucket key : String} {acl : Acl} {parts : Nat → Option SentPart}

/-- **What a step does to an open session** that it does not settle: the part that it sends takes
the place of an earlier one. -/
theorem Holds.step (h : s.Holds (uploadId n) bucket key acl parts) (hn : n < s.opened)
    (hturn : Turn s a s') (hopen : ¬ a.Settles (uploadId n) s) :
    s'.Holds (uploadId n) bucket key acl fun number =>
      (a.sent? (uploadId n) number s).or (parts number) := by
  obtain ⟨u, hu, rfl, rfl, rfl, hparts⟩ := h
  -- all turns but one leave the session as it is, and send it nothing
  have hkept : s'.uploads.get? (uploadId n) = s.uploads.get? (uploadId n) →
      (∀ number, a.sent? (uploadId n) number s = none) →
      s'.Holds (uploadId n) u.bucket u.key u.acl fun number =>
        (a.sent? (uploadId n) number s).or (parts number) := by
    intro huploads hunsent
    refine ⟨u, huploads.trans hu, rfl, rfl, rfl, fun number => ?_⟩
    dsimp only
    rw [hunsent, Option.none_or, hparts]
  cases hturn with
  | still uploads _ unsent _ => exact hkept (by rw [uploads]) (unsent _)
  | began _ _ uploads _ unsent _ =>
    have hne : uploadId n ≠ uploadId s.opened := fun heq => Nat.ne_of_lt hn (uploadId_inj heq)
    exact hkept (by rw [uploads, KeyMap.get?_insert_of_ne hne]) (unsent _)
  | @sent id v number part session uploads _ sent _ =>
    by_cases hid : id = uploadId n
    · subst hid
      rw [hu] at session
      cases session
      refine ⟨u.setPart number part, by rw [uploads, KeyMap.get?_insert_self], rfl, rfl, rfl,
        fun number' => ?_⟩
      dsimp only
      rw [sent, OpenSession.part?_setPart]
      by_cases hnumber : number' = number
      · rw [if_pos hnumber, if_pos ⟨rfl, hnumber.symm⟩, Option.some_or]
      · rw [if_neg hnumber, if_neg fun hboth => hnumber hboth.2.symm, Option.none_or, hparts]
    · refine hkept (by rw [uploads, KeyMap.get?_insert_of_ne (Ne.symm hid)]) fun number' => ?_
      rw [sent, if_neg fun hboth => hid hboth.1]
  | @settled id uploads _ unsent settles =>
    have hne : uploadId n ≠ id := fun heq => hopen ((settles _).2 heq)
    exact hkept (by rw [uploads, KeyMap.get?_erase_of_ne hne]) (unsent _)

/-- A part that is kept has a number above zero, and as many bytes as its range. -/
theorem keepPart_accepts {handle : UploadHandle} {number : Nat} {range : ByteRange} {data : Bytes}
    {etag : String} (h : (s.keepPart handle number range data).1 = .ok etag) :
    number ≠ 0 ∧ range.stop - range.start = data.length := by
  unfold keepPart at h
  split at h
  · cases h
  · rename_i hnumber
    split at h
    · cases h
    · rename_i hlength
      exact ⟨hnumber, Decidable.not_not.1 hlength⟩

/-- **A part that is sent** has a number above zero, and as many bytes as its range. -/
theorem accepted_of_sent? {id : String} {number : Nat} {part : SentPart}
    (h : a.sent? id number s = some part) :
    number ≠ 0 ∧ part.range.stop - part.range.start = part.data.length := by
  cases a with
  | makeBucket | addObject | addMarker | clock => cases h
  | call c =>
    cases c with
    | uploadPart handle number' range data =>
      simp only [StoreStep.sent?] at h
      split at h
      · rename_i hboth
        split at h
        · rename_i hkeep
          cases h
          exact hboth.2 ▸ keepPart_accepts hkeep
        · cases h
      · cases h
    | copyPart handle number' range sourceBucket sourceKey =>
      simp only [StoreStep.sent?] at h
      split at h
      · rename_i hboth
        split at h
        · rename_i hget hcopy
          cases h
          rw [copyPart, hget] at hcopy
          exact hboth.2 ▸ keepPart_accepts hcopy
        · cases h
      · cases h
    | _ => cases h

/-- So has the latest part of a number. -/
theorem accepted_of_lastSent? {id : String} {number : Nat} {part : SentPart}
    {steps : List StoreStep} (h : lastSent? id number s steps = some part) :
    number ≠ 0 ∧ part.range.stop - part.range.start = part.data.length := by
  induction steps generalizing s with
  | nil => cases h
  | cons step rest ih =>
    rcases Option.or_eq_some_iff.1 h with hlater | ⟨-, hsent⟩
    · exact ih hlater
    · exact accepted_of_sent? hsent

/-- No session has a part of number zero. -/
theorem lastSent?_zero (id : String) (s : Store) (steps : List StoreStep) :
    lastSent? id 0 s steps = none :=
  Option.eq_none_iff_forall_ne_some.2 fun _ hsent => (accepted_of_lastSent? hsent).1 rfl

/-- **An open session through a history** that does not settle it: it has the latest part of each
number that was sent to it, whatever else was done in between. -/
theorem Holds.replay (h : s.Holds (uploadId n) bucket key acl parts) (hregular : s.Regular)
    (hn : n < s.opened) {steps : List StoreStep} (hopen : ¬ Settled (uploadId n) s steps) :
    (s.replay steps).Holds (uploadId n) bucket key acl fun number =>
      (lastSent? (uploadId n) number s steps).or (parts number) := by
  induction steps generalizing s parts with
  | nil =>
    simp only [lastSent?, Option.none_or]
    exact h
  | cons step rest ih =>
    rw [Settled, not_or] at hopen
    have hturn := hregular.turn step
    have hrest := ih (h.step hn hturn hopen.1) (hregular.step step)
      (Nat.lt_of_lt_of_le hn hturn.opened_le) hopen.2
    simp only [lastSent?, Option.or_assoc]
    exact hrest

/-- A session that is gone does not come back. -/
theorem gone_replay (hgone : s.uploads.get? (uploadId n) = none) (hregular : s.Regular)
    (hn : n < s.opened) (steps : List StoreStep) :
    (s.replay steps).uploads.get? (uploadId n) = none := by
  induction steps generalizing s with
  | nil => exact hgone
  | cons step rest ih =>
    have hturn := hregular.turn step
    refine ih ?_ (hregular.step step) (Nat.lt_of_lt_of_le hn hturn.opened_le)
    cases hu' : (s.step step).uploads.get? (uploadId n) with
    | none => rfl
    | some u' =>
      rcases hturn.session_before hu' with ⟨u, hu, -⟩ | ⟨hid, -, -⟩
      · rw [hgone] at hu
        cases hu
      · exact absurd (uploadId_inj hid) (Nat.ne_of_lt hn)

/-- **A session that is settled in the course of a history** is gone at its end. -/
theorem settled_replay (hregular : s.Regular) (hn : n < s.opened) {steps : List StoreStep}
    (hsettled : Settled (uploadId n) s steps) :
    (s.replay steps).uploads.get? (uploadId n) = none := by
  induction steps generalizing s with
  | nil => exact hsettled.elim
  | cons step rest ih =>
    have hturn := hregular.turn step
    have hopened := Nat.lt_of_lt_of_le hn hturn.opened_le
    rcases hsettled with hsettles | hsettled
    · refine gone_replay ?_ (hregular.step step) hopened rest
      cases hturn with
      | still _ _ _ unsettled => exact absurd hsettles (unsettled _)
      | began _ _ _ _ _ unsettled => exact absurd hsettles (unsettled _)
      | sent _ _ _ _ unsettled => exact absurd hsettles (unsettled _)
      | settled uploads _ _ settles =>
        rw [uploads, (settles _).1 hsettles, KeyMap.get?_erase_self]
    · exact ih (hregular.step step) hopened hsettled

end Holds

end Store

end BucketFs
