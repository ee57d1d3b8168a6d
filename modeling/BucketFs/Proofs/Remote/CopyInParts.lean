import BucketFs.Proofs.Remote.Exchange
import BucketFs.Proofs.Transfer.Content
import Mathlib.Data.List.Perm.Basic

/-!
# Copies in parts over a service

A service that grants every request of a copy in parts is asked for each byte of the source once,
in whatever order the parts arrive.

* `Exchange.CopiesPart` — the request of one part, with its numbers as a service reads them.
* `PartsInOrder` — requests of parts that are numbered in order and cover an object without a gap.
* `exists_inOrder` — the parts that a session sends, in the order of their numbers.
* `session_exchanges` — a session in which every request is granted.
* `copy_covers_source` — a copy in parts as the service sees it.
-/

namespace BucketFs.Remote

open BucketFs.Text BucketFs.Transfer PlannedPart

variable {τ : Type}

/-! ## Requests of parts -/

namespace Exchange

/-- The length by which a probe was answered. -/
def length? : Exchange → Option Int
  | ⟨.head _ _, _, .ok fields⟩ => fields.contentLength
  | _ => none

/-- The upload id by which the opening of a session was answered. -/
def uploadId? : Exchange → Option String
  | ⟨.initiate _ _ _, _, .ok id⟩ => id
  | _ => none

/-- The tag by which the copy of a part was answered. -/
def etag? : Exchange → Option String
  | ⟨.copyPart _ _ _ _ _, _, .ok etag⟩ => etag
  | _ => none

/-- A request to fill the part of a session with the positions of an object from the first to the
last one, and the tag by which it was answered. -/
structure CopiesPart (handle : UploadHandle) (sourceBucket sourceKey : String)
    (number first last : Nat) (etag : String) (x : Exchange) : Prop where
  method : x.request.request.method = .put
  subject : x.request.request.subject = .object handle.bucket handle.key
  upload : x.request.request.query.lookup "uploadId" = some handle.uploadId
  number : (x.request.request.query.lookup "partNumber").bind readWord? = some number
  source : x.request.request.headers.lookup copySource = some (sourceText sourceBucket sourceKey)
  range : (x.request.request.headers.lookup "x-amz-copy-source-range").bind readRange? =
    some (first, last)
  etag : x.etag? = some etag

end Exchange

/-- Requests of parts that are numbered from `index + 1` on and lead without a gap from the position
`offset` to the end of an object of the given size, and a list of these parts with their tags. -/
def PartsInOrder (handle : UploadHandle) (sourceBucket sourceKey : String) (size : Nat) :
    (index offset : Nat) → List Exchange → List FinishedPart → Prop
  | _, offset, [], [] => offset = size
  | index, offset, x :: xs, f :: list =>
    f.number = index + 1 ∧
      ∃ last, offset ≤ last ∧
        x.CopiesPart handle sourceBucket sourceKey (index + 1) offset last f.etag ∧
        PartsInOrder handle sourceBucket sourceKey size (index + 1) (last + 1) xs list
  | _, _, _, _ => False

section Parts

variable {client : Client} {through : Access} {handle : UploadHandle}
  {sourceBucket sourceKey : String} {size : Nat} {plan : List PlannedPart} {x : Exchange}

theorem partsInOrder_of_plan {tag : PlannedPart → String} {xs : List Exchange} {index offset : Nat}
    (hplan : Consecutive size index offset plan)
    (hxs : List.Forall₂ (fun p x => Exchange.CopiesPart handle sourceBucket sourceKey p.number
      p.range.start (p.range.stop - 1) (tag p) x) plan xs) :
    PartsInOrder handle sourceBucket sourceKey size index offset xs
      (plan.map fun p => ⟨p.number, tag p⟩) := by
  induction hxs generalizing index offset with
  | nil => exact hplan
  | @cons p x _ _ hx _ ih =>
    obtain ⟨hnumber, hstart, hlt, hrest⟩ := hplan
    rw [hnumber, hstart] at hx
    refine ⟨hnumber, p.range.stop - 1, by omega, hx, ?_⟩
    rw [Nat.sub_add_cancel (by omega)]
    exact ih hrest

theorem PartsInOrder.method {xs : List Exchange} {list : List FinishedPart} {index offset : Nat}
    (h : PartsInOrder handle sourceBucket sourceKey size index offset xs list) :
    ∀ x ∈ xs, x.request.request.method = .put := by
  induction xs generalizing index offset list with
  | nil => simp
  | cons x rest ih =>
    cases list with
    | nil => cases h
    | cons f list =>
      obtain ⟨-, last, -, hx, hrest⟩ := h
      intro y hy
      rcases List.mem_cons.1 hy with rfl | hy
      · exact hx.method
      · exact ih hrest y hy

/-! ## Exchanges as the service reads them -/

/-- **The probe** as the service reads it, and the length that it answers. -/
theorem Exchange.Made.probe {bucket key : String} {r : Result ObjectInfo}
    (h : Made client through ⟨.store through (.head bucket key), r⟩ x)
    (hsize : r.map (·.size) = .ok size) (hgranted : isGranted x.call x.reply = true) :
    x.request.request = { method := .head, subject := .object bucket key } ∧
      readSize x.length? = size ∧ size < 2 ^ 63 := by
  cases h with
  | intro _ signed reply sends =>
    refine ⟨by simpa [requestOf] using sends.1.symm, ?_⟩
    cases reply with
    | error f => cases hsize
    | ok fields =>
      obtain rfl : readSize fields.contentLength = size := Except.ok.inj hsize
      exact ⟨rfl, readSize_of_granted hgranted⟩

/-- **The opening of a session** as the service reads it, and the session that it answers. -/
theorem Exchange.Made.opening {bucket key : String} {acl : Option Acl}
    (h : Made client through ⟨.store through (.initiate bucket key acl), Except.ok handle⟩ x)
    (hgranted : isGranted x.call x.reply = true) :
    x.request.request =
        { method := .post, subject := .object bucket key, headers := aclHeader acl } ∧
      ∃ id, x.uploadId? = some id ∧ id ≠ "" ∧ handle = ⟨bucket, key, id⟩ := by
  generalize hanswer : (Except.ok handle : Result UploadHandle) = answer at h
  cases h with
  | intro _ signed reply sends =>
    refine ⟨by simpa [requestOf] using sends.1.symm, ?_⟩
    cases reply with
    | error f => cases hanswer
    | ok fields =>
      cases fields with
      | none => cases hanswer
      | some id =>
        refine ⟨id, rfl, ?_, Except.ok.inj hanswer⟩
        simpa [isGranted] using hgranted

/-- **The copy of a part** as the service reads it. -/
theorem Exchange.Made.copiesPart {number : Nat} {range : ByteRange} {etag : String}
    (h : Made client through
      ⟨.store through (.copyPart handle number range sourceBucket sourceKey), Except.ok etag⟩ x)
    (hnumber : number < countLimit) (hlt : range.start < range.stop)
    (hstop : range.stop ≤ wordLimit) :
    x.CopiesPart handle sourceBucket sourceKey number range.start (range.stop - 1) etag := by
  generalize hanswer : (Except.ok etag : Result String) = answer at h
  cases h with
  | intro _ signed reply sends =>
    have hrequest : signed.request = partRequest handle number range sourceBucket sourceKey := by
      simpa [requestOf_copyPart handle hnumber] using sends.1.symm
    have hreply : reply = .ok (some etag) := by
      cases reply with
      | error f => cases hanswer
      | ok fields =>
        cases fields with
        | none => cases hanswer
        | some e =>
          cases hanswer
          rfl
    subst hreply
    constructor
    case etag => rfl
    case range =>
      rw [hrequest, lookup_range, Option.bind_some, readRange?_rangeText hlt hstop]
    case number =>
      rw [hrequest]
      exact readWord?_toString (by simp only [countLimit, wordLimit] at *; omega)
    all_goals
      rw [hrequest]
      rfl

/-- **The completion** as the service reads it. -/
theorem Exchange.Made.request_complete {list : List FinishedPart} {r : Result Unit}
    (h : Made client through ⟨.store through (.complete handle list), r⟩ x)
    (hnumbers : ∀ f ∈ list, f.number < countLimit) :
    x.request.request = completionRequest handle list := by
  cases h with
  | intro _ signed reply sends =>
    simpa [requestOf_complete handle hnumbers] using sends.1.symm

/-! ## The parts of a session -/

/-- A part that a service can number, with positions that can be written down. -/
def Fits (p : PlannedPart) : Prop :=
  p.number < countLimit ∧ p.range.start < p.range.stop ∧ p.range.stop ≤ wordLimit

theorem fits_of_plan (hplan : Consecutive size 0 0 plan) (hcount : plan.length < countLimit)
    (hsize : size ≤ wordLimit) : ∀ p ∈ plan, Fits p := by
  intro p hp
  obtain ⟨-, hnumber⟩ := hplan.number_mem hp
  obtain ⟨hlt, hstop⟩ := hplan.range_mem hp
  exact ⟨by omega, hlt, by omega⟩

/-- The tags that calls were answered by, as a function of the part. -/
theorem exists_tag {calls : List PartCall} (hdistinct : (calls.map (·.part)).Nodup)
    (hok : ∀ c ∈ calls, ∃ etag, c.reply = .ok etag) :
    ∃ tag : PlannedPart → String, ∀ c ∈ calls, c.reply = .ok (tag c.part) := by
  refine ⟨fun p => (heard (fun _ => .ok "") calls p).toOption.getD "", fun c hc => ?_⟩
  obtain ⟨etag, hetag⟩ := hok c hc
  simp only [heard_of_mem hdistinct hc, hetag]
  rfl

/-- Each planned part is sent by one call. -/
theorem perm_of_allSent {source : Source} {calls : List PartCall} {list : List FinishedPart}
    (hcalls : PartCalls through source handle plan calls) (hall : AllSent plan calls list)
    (hplan : Consecutive size 0 0 plan) : plan.Perm (calls.map (·.part)) := by
  have hdistinct : (calls.map (·.part)).Nodup := by
    refine List.Nodup.of_map (·.number) ?_
    rw [List.map_map]
    exact hcalls.distinct
  rw [List.perm_ext_iff_of_nodup hplan.nodup hdistinct]
  refine fun p => ⟨fun hp => ?_, fun hp => ?_⟩
  · obtain ⟨c, hc, rfl, -⟩ := hall.sent p hp
    exact List.mem_map_of_mem hc
  · obtain ⟨c, hc, rfl⟩ := List.mem_map.1 hp
    exact hcalls.planned c hc

/-- The numbers of all parts can be written into a completion. -/
theorem number_lt_of_allSent {calls : List PartCall} {list : List FinishedPart}
    (hall : AllSent plan calls list) (hcount : plan.length < countLimit) :
    ∀ f ∈ list, f.number < countLimit := by
  intro f hf
  have hmem : f.number ∈ list.map (·.number) := List.mem_map_of_mem hf
  rw [hall.numbers, List.mem_range'_1] at hmem
  omega

/-- The calls that end a session become requests. -/
theorem ending_sent (through : Access) {list : List FinishedPart} {events : List Event}
    (hto : client.Reaches handle.bucket handle.key) (hid : handle.uploadId ≠ "")
    (hnumbers : ∀ f ∈ list, f.number < countLimit)
    (hends : ∀ e ∈ events, e.1 = .store through (.complete handle list) ∨
      e.1 = .store through (.abort handle)) :
    ∀ e ∈ events, ∃ c signed, e.1 = .store through c ∧ client.Sends c signed := by
  intro e he
  rcases hends e he with he | he
  · obtain ⟨signed, hsends⟩ := hto.sends_complete hid hnumbers
    exact ⟨_, signed, he, hsends⟩
  · obtain ⟨signed, hsends⟩ := hto.sends_abort hid
    exact ⟨_, signed, he, hsends⟩

section Session

variable {source : Path} {calls : List PartCall}
  (hsource : objectAt source = .ok (sourceBucket, sourceKey))
include hsource

/-- A part of an object is sent by one call. -/
theorem events_copyPart {part : PlannedPart} {events : List Event} {reply : Result String}
    (h : (Source.object source).SendsPart through handle part events reply) :
    events =
      [⟨.store through (.copyPart handle part.number part.range sourceBucket sourceKey),
        reply⟩] := by
  cases h with
  | object location reply =>
    rw [hsource] at location
    cases location
    rfl

theorem calls_sent (hto : client.Reaches handle.bucket handle.key) (hid : handle.uploadId ≠ "")
    (hheader : Client.isHeaderText sourceBucket = true)
    (hcalls : PartCalls through (.object source) handle plan calls) (hfits : ∀ p ∈ plan, Fits p) :
    ∀ e ∈ calls.flatMap (·.events), ∃ c signed, e.1 = .store through c ∧ client.Sends c signed := by
  intro e he
  obtain ⟨c, hc, he⟩ := List.mem_flatMap.1 he
  rw [events_copyPart hsource (hcalls.sends c hc), List.mem_singleton] at he
  subst he
  obtain ⟨signed, hsends⟩ := hto.sends_copyPart hid (hfits c.part (hcalls.planned c hc)).1
    c.part.range hheader sourceKey
  exact ⟨_, signed, rfl, hsends⟩

/-- The requests of parts that were sent and answered, one for each call. -/
theorem forall₂_calls {tag : PlannedPart → String}
    (hsends : ∀ c ∈ calls, (Source.object source).SendsPart through handle c.part c.events c.reply)
    (hfits : ∀ c ∈ calls, Fits c.part) (htag : ∀ c ∈ calls, c.reply = .ok (tag c.part)) :
    ∀ {xs : List Exchange},
      List.Forall₂ (Exchange.Made client through) (calls.flatMap (·.events)) xs →
      List.Forall₂ (fun p x => Exchange.CopiesPart handle sourceBucket sourceKey p.number
        p.range.start (p.range.stop - 1) (tag p) x) (calls.map (·.part)) xs := by
  induction calls with
  | nil =>
    intro xs hmade
    cases hmade
    exact .nil
  | cons c rest ih =>
    intro xs hmade
    rw [List.flatMap_cons, events_copyPart hsource (hsends c (by simp)), htag c (by simp)] at hmade
    cases hmade with
    | cons hx hxs =>
      obtain ⟨hnumber, hlt, hstop⟩ := hfits c (by simp)
      exact .cons (hx.copiesPart hnumber hlt hstop) (ih (fun d hd => hsends d (by simp [hd]))
        (fun d hd => hfits d (by simp [hd])) (fun d hd => htag d (by simp [hd])) hxs)

/-- A call whose request is granted is answered by a tag. -/
theorem calls_answered {xs : List Exchange}
    (hsends : ∀ c ∈ calls, (Source.object source).SendsPart through handle c.part c.events c.reply)
    (hmade : List.Forall₂ (Exchange.Made client through) (calls.flatMap (·.events)) xs)
    (hgranted : ∀ x ∈ xs, isGranted x.call x.reply = true) :
    ∀ c ∈ calls, ∃ etag, c.reply = .ok etag := by
  intro c hc
  refine ok_of_granted hmade hgranted (c := .copyPart handle c.part.number c.part.range sourceBucket
    sourceKey) (List.mem_flatMap.2 ⟨c, hc, ?_⟩)
  rw [events_copyPart hsource (hsends c hc)]
  exact List.mem_singleton_self _

/-- **The parts of a session**, in the order of their numbers. -/
theorem exists_inOrder {list : List FinishedPart} {xs : List Exchange}
    (hcalls : PartCalls through (.object source) handle plan calls)
    (hall : AllSent plan calls list) (hplan : Consecutive size 0 0 plan)
    (hfits : ∀ p ∈ plan, Fits p) (hok : ∀ c ∈ calls, ∃ etag, c.reply = .ok etag)
    (hmade : List.Forall₂ (Exchange.Made client through) (calls.flatMap (·.events)) xs) :
    ∃ inOrder, xs.Perm inOrder ∧
      PartsInOrder handle sourceBucket sourceKey size 0 0 inOrder list := by
  have hperm := perm_of_allSent hcalls hall hplan
  obtain ⟨tag, htag⟩ := exists_tag (hperm.nodup_iff.1 hplan.nodup) hok
  obtain ⟨inOrder, hparts, hsent⟩ := List.perm_comp_forall₂ hperm
    (forall₂_calls hsource hcalls.sends (fun c hc => hfits _ (hcalls.planned c hc)) htag hmade)
  refine ⟨inOrder, hsent.symm, ?_⟩
  rw [hall.list_eq hplan hcalls.planned tag htag]
  exact partsInOrder_of_plan hplan hparts

variable {transport : Transport τ} {s s' : (List Exchange × τ) × LocalFile}

/-- Sending the parts of a session. -/
theorem parts_exchanges {rest : List Event} (hto : client.Reaches handle.bucket handle.key)
    (hid : handle.uploadId ≠ "") (hheader : Client.isHeaderText sourceBucket = true)
    (hcalls : PartCalls through (.object source) handle plan calls) (hfits : ∀ p ∈ plan, Fits p)
    (hreplay : (client.handler transport.recorded).Replays s (calls.flatMap (·.events) ++ rest) s')
    (hgranted : ∀ x ∈ s'.1.1, isGranted x.call x.reply = true) :
    ∃ t sent, t.1.1 = s.1.1 ++ sent ∧ (client.handler transport.recorded).Replays t rest s' ∧
      List.Forall₂ (Exchange.Made client through) (calls.flatMap (·.events)) sent ∧
      ∀ c ∈ calls, ∃ etag, c.reply = .ok etag := by
  obtain ⟨t, hsending, hrest⟩ := (Handler.replays_append _ _ _ _ _).1 hreplay
  obtain ⟨sent, ht, hmade⟩ :=
    replays_exchanges (calls_sent hsource hto hid hheader hcalls hfits) hsending
  refine ⟨t, sent, ht, hrest, hmade, calls_answered hsource hcalls.sends hmade fun x hx => ?_⟩
  exact hgranted x ((replays_grows hrest).subset (by simp [ht, hx]))

/-- **A session in which every request is granted** sends all parts and is completed with them. -/
theorem session_exchanges {key : String} {order : List PlannedPart} {events : List Event}
    {result : Result Transferred}
    (hlog : SessionLog through (.object source) handle key size plan order events result)
    (hplan : Consecutive size 0 0 plan) (hcount : plan.length < countLimit)
    (hsize : size ≤ wordLimit) (hto : client.Reaches handle.bucket handle.key)
    (hid : handle.uploadId ≠ "") (hheader : Client.isHeaderText sourceBucket = true)
    (hreplay : (client.handler transport.recorded).Replays s events s')
    (hgranted : ∀ x ∈ s'.1.1, isGranted x.call x.reply = true) :
    ∃ sent completion inOrder list, s'.1.1 = s.1.1 ++ (sent ++ [completion]) ∧
      sent.Perm inOrder ∧ list.length = plan.length ∧
      PartsInOrder handle sourceBucket sourceKey size 0 0 inOrder list ∧
      completion.request.request = completionRequest handle list ∧
      result = .ok ⟨size, plan.length⟩ := by
  have hfits := fits_of_plan hplan hcount hsize
  cases hlog with
  | completed calls list parts all =>
    obtain ⟨t, sent, ht, hrest, hmade, hok⟩ :=
      parts_exchanges hsource hto hid hheader parts hfits hreplay hgranted
    have hnumbers := number_lt_of_allSent all hcount
    obtain ⟨ys, hlast, hends⟩ :=
      replays_exchanges (ending_sent through hto hid hnumbers (by simp)) hrest
    obtain ⟨inOrder, hperm, horder⟩ := exists_inOrder hsource parts all hplan hfits hok hmade
    cases hends with
    | cons hx hnil =>
      cases hnil
      refine ⟨sent, _, inOrder, list, ?_, hperm, ?_, horder, hx.request_complete hnumbers, rfl⟩
      · rw [hlast, ht, List.append_assoc]
      · rw [← List.length_map, all.numbers, List.length_range']
  | partFailed calls cause reply parts first =>
    obtain ⟨-, -, -, -, -, hok⟩ :=
      parts_exchanges hsource hto hid hheader parts hfits hreplay hgranted
    obtain ⟨-, c, -, -, hc, hcause, -⟩ := first
    obtain ⟨etag, hetag⟩ := hok c hc
    rw [hcause] at hetag
    cases hetag
  | completionFailed calls list cause reply parts all =>
    obtain ⟨t, -, -, hrest, -, -⟩ :=
      parts_exchanges hsource hto hid hheader parts hfits hreplay hgranted
    obtain ⟨ys, hlast, hends⟩ := replays_exchanges
      (ending_sent through hto hid (number_lt_of_allSent all hcount) (by simp)) hrest
    obtain ⟨v, hv⟩ := ok_of_granted hends (fun x hx => hgranted x (by simp [hlast, hx]))
      List.mem_cons_self
    cases hv

/-- **A transfer in which every request is granted** opens a session and completes it. -/
theorem transfer_exchanges {bucket key : String} {acl : Option Acl} {order : List PlannedPart}
    {events : List Event} {result : Result Transferred}
    (hlog : TransferLog through (.object source) bucket key acl size plan order events result)
    (hplan : Consecutive size 0 0 plan) (hcount : plan.length < countLimit)
    (hsize : size ≤ wordLimit) (hto : client.Reaches bucket key)
    (hheader : Client.isHeaderText sourceBucket = true)
    (hreplay : (client.handler transport.recorded).Replays s events s')
    (hgranted : ∀ x ∈ s'.1.1, isGranted x.call x.reply = true) :
    ∃ opening sent completion inOrder id list,
      s'.1.1 = s.1.1 ++ opening :: (sent ++ [completion]) ∧
      opening.request.request =
        { method := .post, subject := .object bucket key, headers := aclHeader acl } ∧
      opening.uploadId? = some id ∧ sent.Perm inOrder ∧ list.length = plan.length ∧
      PartsInOrder ⟨bucket, key, id⟩ sourceBucket sourceKey size 0 0 inOrder list ∧
      completion.request.request = completionRequest ⟨bucket, key, id⟩ list ∧
      result = .ok ⟨size, plan.length⟩ := by
  obtain ⟨signed, hsends⟩ := hto.sends_initiate acl
  cases hlog with
  | refused e =>
    obtain ⟨x, -, hx, -, hmade, -⟩ := replays_exchange hsends hreplay
    obtain ⟨handle, hhandle⟩ := hmade.granted (hgranted x hx)
    cases hhandle
  | opened handle rest _ session =>
    obtain ⟨opening, t, hmem, ht, hmade, hrest⟩ := replays_exchange hsends hreplay
    obtain ⟨hrequest, id, hopening, hid, rfl⟩ := hmade.opening (hgranted opening hmem)
    obtain ⟨sent, completion, inOrder, list, hs', hends⟩ :=
      session_exchanges hsource session hplan hcount hsize hto hid hheader hrest hgranted
    refine ⟨opening, sent, completion, inOrder, id, list, ?_, hrequest, hopening, hends⟩
    rw [hs', ht, List.append_assoc, List.singleton_append]

end Session

end Parts

/-! ## The whole copy -/

/-- The calls of a copy that is split: the probe, and those of a transfer. -/
theorem copy_log {σ : Type} (h : Handler σ) (s : σ) (through : Access) (schedule : Schedule)
    {source target : Path} (acl : Option Acl) (options : TransferOptions)
    {sourceBucket sourceKey bucket key : String} {size : Nat}
    (hsource : objectAt source = .ok (sourceBucket, sourceKey))
    (htarget : objectAt target = .ok (bucket, key))
    (hsize : (h (.store through (.head sourceBucket sourceKey)) s).1.map (·.size) = .ok size)
    (hsplits : options.splits size = true) :
    ∃ log, (copy through schedule source target acl options).run.events h s =
        ⟨.store through (.head sourceBucket sourceKey),
          (h (.store through (.head sourceBucket sourceKey)) s).1⟩ :: log ∧
      ∀ plan, parts size options.chunkSize = .ok plan → Consecutive size 0 0 plan →
        TransferLog through (.object source) bucket key acl size plan
          (arrivals (max 1 options.maxConcurrency) schedule plan) log
          ((copy through schedule source target acl options).run.run h s).1 := by
  have hasked : (((Source.object source).size through).run h s).1 = .ok size := by
    rw [Source.size, hsource]
    exact hsize
  have hprobe : ((Source.object source).size through).events h s =
      [⟨.store through (.head sourceBucket sourceKey),
        (h (.store through (.head sourceBucket sourceKey)) s).1⟩] := by
    rw [Source.size, hsource]
    rfl
  have heq := Source.transfer_eq (.object source) through schedule htarget acl options
  have hevents := congrArg (fun p => p.events h s) heq
  rw [Program.events_bind, hprobe] at hevents
  refine ⟨_, hevents, fun plan hparts hplan => ?_⟩
  obtain ⟨log, hlog, htransfer⟩ := transfer_log h s through schedule (.object source) acl options
    htarget hasked hsplits hparts hplan
  rw [hprobe, hevents] at hlog
  rwa [(List.cons.inj hlog).2]

/-- **A copy in parts asks for every byte once.**  For every size that is split into fewer than
`2 ^ 31` parts and every order in which the parts arrive: when the service grants all requests, it
sees the probe, the opening of a session, the copies of the parts, which in the order of their
numbers cover the source without a gap, and one completion that lists each part with its tag.
Nothing discards the session, and no position that planning computes leaves the range of
positions. -/
theorem copy_covers_source (client : Client) (transport : Transport τ) (t : τ) (file : LocalFile)
    (through : Access) (schedule : Schedule) {source target : Path} (acl : Option Acl)
    (options : TransferOptions) {sourceBucket sourceKey bucket key : String} {size : Nat}
    (hsource : objectAt source = .ok (sourceBucket, sourceKey))
    (htarget : objectAt target = .ok (bucket, key))
    (hfrom : client.Reaches sourceBucket sourceKey) (hto : client.Reaches bucket key)
    (hheader : Client.isHeaderText sourceBucket = true)
    (hsize : (client.answer transport (.head sourceBucket sourceKey) t).1.map (·.size) = .ok size)
    (hsplits : options.splits size = true)
    (hcount : ceilDiv size options.chunkSize < countLimit) :
    let final := (copy through schedule source target acl options).run.run
      (client.handler transport.recorded) (([], t), file)
    (∀ x ∈ final.2.1.1, isGranted x.call x.reply = true) →
    ∃ probe opening sent completion inOrder id list,
      final.2.1.1 = probe :: opening :: (sent ++ [completion]) ∧
      probe.request.request = { method := .head, subject := .object sourceBucket sourceKey } ∧
      readSize probe.length? = size ∧
      opening.request.request =
        { method := .post, subject := .object bucket key, headers := aclHeader acl } ∧
      opening.uploadId? = some id ∧
      sent.Perm inOrder ∧ list.length = ceilDiv size options.chunkSize ∧
      PartsInOrder ⟨bucket, key, id⟩ sourceBucket sourceKey size 0 0 inOrder list ∧
      completion.request.request = completionRequest ⟨bucket, key, id⟩ list ∧
      (∀ x ∈ final.2.1.1, x.request.request.method ≠ .delete) ∧
      final.1 = .ok ⟨size, ceilDiv size options.chunkSize⟩ ∧
      ∀ index < ceilDiv size options.chunkSize,
        index * options.chunkSize + options.chunkSize < positionLimit := by
  intro final hgranted
  obtain ⟨signed, hprobe⟩ := hfrom.sends_head
  have hanswer : (client.handler transport.recorded
      (.store through (.head sourceBucket sourceKey)) (([], t), file)).1 =
        (client.answer transport (.head sourceBucket sourceKey) t).1 := by
    simp [handler_recorded hprobe, Client.answer, hprobe.1, hprobe.2]
  obtain ⟨log, hevents, hlog⟩ := copy_log (client.handler transport.recorded) (([], t), file)
    through schedule acl options hsource htarget (by rw [hanswer, hsize]) hsplits
  have hreplay := Program.replays (client.handler transport.recorded)
    (copy through schedule source target acl options).run (([], t), file)
  rw [hevents] at hreplay
  -- the answer to the probe bounds the size, and so the positions of the plan
  obtain ⟨probe, m, hmem, hm, hmade, hbehind⟩ := replays_exchange hprobe hreplay
  obtain ⟨hrequest, hlength, hbound⟩ :=
    hmade.probe (by rw [hanswer, hsize]) (hgranted probe hmem)
  obtain ⟨hchunk, hlt⟩ := TransferOptions.splits_iff.1 hsplits
  have hparts := parts_eq_ok hchunk (Nat.lt_trans hcount (by decide))
    (by rw [positionLimit]; omega)
  obtain ⟨hplan, hplength⟩ := consecutive_of_parts hparts
  obtain ⟨opening, sent, completion, inOrder, id, list, hfinal, hopening, hid, hperm, hnumbers,
    horder, hcompletion, hresult⟩ := transfer_exchanges hsource (hlog _ hparts hplan) hplan
      (by rwa [hplength]) (by rw [wordLimit]; omega) hto hheader hbehind hgranted
  rw [hplength] at hnumbers hresult
  have hlog : final.2.1.1 = probe :: opening :: (sent ++ [completion]) := by
    rw [hfinal, hm, List.nil_append, List.singleton_append]
  refine ⟨probe, opening, sent, completion, inOrder, id, list, hlog, hrequest, hlength, hopening,
    hid, hperm, hnumbers, horder, hcompletion, fun x hx => ?_, hresult, fun index hindex => ?_⟩
  · rw [hlog] at hx
    simp only [List.mem_cons, List.mem_append, List.not_mem_nil, or_false] at hx
    rcases hx with rfl | rfl | hx | rfl
    · simp [hrequest]
    · simp [hopening]
    · simp [horder.method x (hperm.subset hx)]
    · simp [hcompletion, completionRequest]
  · have hstart := (lt_ceilDiv_iff hchunk).1 hindex
    rw [positionLimit]
    omega

/-- The answers of a service that grants every request.  Its objects have five bytes, and the tag of
a part says how many requests came before. -/
def grantedFields (requests : Nat) : (c : StoreCall) → Fields c
  | .head _ _ => { contentLength := some 5 }
  | .list _ => {}
  | .get _ _ _ => []
  | .put _ _ _ _ => none
  | .delete _ _ => ()
  | .copy _ _ _ _ _ => ()
  | .buckets => []
  | .initiate _ _ _ => some "u"
  | .uploadPart _ _ _ _ => some (toString requests)
  | .copyPart _ _ _ _ _ => some (toString requests)
  | .complete _ _ => ()
  | .abort _ => ()

/-- Five bytes in three parts, of which the second is sent first. -/
theorem copy_covers_source_interleaved :
    let client : Client := ⟨⟨"us-east-1", some "http://localhost:4566", true⟩, some "test"⟩
    let transport : Transport Nat := fun c _ n => (.ok (grantedFields n c), n + 1)
    let source : Path := ⟨0, true, ["a", "x y"]⟩
    let target : Path := ⟨0, true, ["b", "k"]⟩
    let final := (copy ⟨0, 0⟩ id source target none ⟨2, 2⟩).run.run
      (client.handler transport.recorded) (([], 0), .absent)
    objectAt source = .ok ("a", "x y") ∧ objectAt target = .ok ("b", "k") ∧
      client.Reaches "a" "x y" ∧ client.Reaches "b" "k" ∧ Client.isHeaderText "a" = true ∧
      (client.answer transport (.head "a" "x y") 0).1.map (·.size) = .ok 5 ∧
      (⟨2, 2⟩ : TransferOptions).splits 5 = true ∧ ceilDiv 5 2 < countLimit ∧
      (∀ x ∈ final.2.1.1, isGranted x.call x.reply = true) ∧
      final.2.1.1.filterMap (·.request.request.headers.lookup "x-amz-copy-source-range") =
        ["bytes=2-3", "bytes=0-1", "bytes=4-4"] ∧
      ∃ probe opening sent completion inOrder uploadId list,
        final.2.1.1 = probe :: opening :: (sent ++ [completion]) ∧ sent.Perm inOrder ∧
        list.length = 3 ∧ PartsInOrder ⟨"b", "k", uploadId⟩ "a" "x y" 5 0 0 inOrder list ∧
        completion.request.request = completionRequest ⟨"b", "k", uploadId⟩ list ∧
        final.1 = .ok ⟨5, 3⟩ := by
  intro client transport source target final
  have hroute : ∀ bucket ∈ ["a", "b"],
      (client.route? (some bucket)).map (·.session) = some false := by decide +kernel
  have hfrom : client.Reaches "a" "x y" :=
    ⟨rfl, Option.map_eq_some_iff.1 (hroute "a" (by simp)), by decide⟩
  have hto : client.Reaches "b" "k" :=
    ⟨rfl, Option.map_eq_some_iff.1 (hroute "b" (by simp)), by decide⟩
  have hsource : objectAt source = .ok ("a", "x y") := rfl
  have htarget : objectAt target = .ok ("b", "k") := rfl
  have hsize : (client.answer transport (.head "a" "x y") 0).1.map (·.size) = .ok 5 := rfl
  have hsplits : (⟨2, 2⟩ : TransferOptions).splits 5 = true := rfl
  have hcount : ceilDiv 5 2 < countLimit := by decide
  have hgranted : ∀ x ∈ final.2.1.1, isGranted x.call x.reply = true := by decide +kernel
  have hranges : final.2.1.1.filterMap
      (·.request.request.headers.lookup "x-amz-copy-source-range") =
        ["bytes=2-3", "bytes=0-1", "bytes=4-4"] := by decide +kernel
  obtain ⟨probe, opening, sent, completion, inOrder, uploadId, list, hlog, -, -, -, -, hperm,
    hlength, horder, hcompletion, -, hresult, -⟩ := copy_covers_source client transport 0 .absent
      ⟨0, 0⟩ id none ⟨2, 2⟩ hsource htarget hfrom hto (by decide) hsize hsplits hcount hgranted
  exact ⟨hsource, htarget, hfrom, hto, by decide, hsize, hsplits, hcount, hgranted, hranges, probe,
    opening, sent, completion, inOrder, uploadId, list, hlog, hperm, hlength, horder, hcompletion,
    hresult⟩

end BucketFs.Remote
