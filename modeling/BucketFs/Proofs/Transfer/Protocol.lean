import BucketFs.Proofs.Store.Handlers
import BucketFs.Proofs.Store.Sessions
import BucketFs.Proofs.Transfer.Session
import BucketFs.Proofs.Transfer.Source

/-!
# The protocol of a transfer in parts

Whatever fails and in whatever order the parts arrive, a transfer in parts opens one session, sends
distinct parts of it, and ends it once.

* `TransferLog` — the calls that a transfer in parts may make, and what it comes to.
* `transfer_log` — every run makes such calls.
* `SessionLog.sameBut` — over a store in memory, a transfer that fails leaves nothing behind.
* `transfer_follows_protocol` — both together.
-/

namespace BucketFs.Transfer

open PlannedPart

variable {σ : Type}

/-! ## The calls -/

/-- Calls that send distinct parts of a plan from a source. -/
structure PartCalls (through : Access) (source : Source) (handle : UploadHandle)
    (plan : List PlannedPart) (calls : List PartCall) : Prop where
  sends : ∀ c ∈ calls, source.SendsPart through handle c.part c.events c.reply
  distinct : (calls.map (·.part.number)).Nodup
  planned : ∀ c ∈ calls, c.part ∈ plan

/-- The calls of a session behind the one that opened it, and the result of the transfer.  `order`
is the order in which the parts arrive. -/
inductive SessionLog (through : Access) (source : Source) (handle : UploadHandle) (key : String)
    (size : Nat) (plan order : List PlannedPart) : List Event → Result Transferred → Prop
  /-- All parts are sent and the session is completed with them. -/
  | completed (calls : List PartCall) (list : List FinishedPart)
      (parts : PartCalls through source handle plan calls) (all : AllSent plan calls list) :
      SessionLog through source handle key size plan order
        (calls.flatMap (·.events) ++ [⟨.store through (.complete handle list), Except.ok ()⟩])
        (.ok ⟨size, plan.length⟩)
  /-- A part fails and the session is discarded. -/
  | partFailed (calls : List PartCall) (cause : FsError) (reply : Result Unit)
      (parts : PartCalls through source handle plan calls) (first : FirstFailed order calls cause) :
      SessionLog through source handle key size plan order
        (calls.flatMap (·.events) ++ [⟨.store through (.abort handle), reply⟩])
        (.error (.transferFailed key handle.uploadId cause))
  /-- All parts are sent, the completion fails and the session is discarded. -/
  | completionFailed (calls : List PartCall) (list : List FinishedPart) (cause : FsError)
      (reply : Result Unit) (parts : PartCalls through source handle plan calls)
      (all : AllSent plan calls list) :
      SessionLog through source handle key size plan order
        (calls.flatMap (·.events) ++ [⟨.store through (.complete handle list), Except.error cause⟩,
          ⟨.store through (.abort handle), reply⟩])
        (.error (.transferFailed key handle.uploadId cause))

/-- The calls of a transfer in parts and its result. -/
inductive TransferLog (through : Access) (source : Source) (bucket key : String)
    (acl : Option Acl) (size : Nat) (plan order : List PlannedPart) :
    List Event → Result Transferred → Prop
  /-- No session is opened. -/
  | refused (e : FsError) :
      TransferLog through source bucket key acl size plan order
        [⟨.store through (.initiate bucket key acl), Except.error e⟩] (.error e)
  | opened (handle : UploadHandle) (rest : List Event) (result : Result Transferred)
      (session : SessionLog through source handle key size plan order rest result) :
      TransferLog through source bucket key acl size plan order
        (⟨.store through (.initiate bucket key acl), Except.ok handle⟩ :: rest) result

section Log

variable {h : Handler σ} {through : Access} {source : Source} {handle : UploadHandle}
  {plan order : List PlannedPart} {calls : List PartCall} {size : Nat} {s₀ : σ}

theorem SendsParts.partCalls (hplan : Consecutive size 0 0 plan) {n : Nat}
    (hsize : ((source.size through).run h s₀).1 = .ok n)
    (hcalls : SendsParts h (fun part => source.sendPart through handle part) plan calls) :
    PartCalls through source handle plan calls := by
  refine ⟨fun c hc => ?_, ?_, hcalls.planned⟩
  · obtain ⟨t, hevents, hreply⟩ := hcalls.made c hc
    rw [hevents, hreply]
    exact Source.sendsPart h through handle c.part hsize t
  · have hnumbers : calls.map (·.part.number) = (calls.map (·.part)).map (·.number) := by
      rw [List.map_map]
      rfl
    rw [hnumbers]
    refine hcalls.distinct.map_on fun p hp q hq heq => ?_
    obtain ⟨c, hc, rfl⟩ := List.mem_map.1 hp
    obtain ⟨d, hd, rfl⟩ := List.mem_map.1 hq
    exact hplan.eq_of_number (hcalls.planned c hc) (hcalls.planned d hd) heq

/-- **Every transfer in parts keeps to the protocol**, whatever fails. -/
theorem transfer_log (h : Handler σ) (s : σ) (through : Access) (schedule : Schedule)
    (source : Source) {target : Path} (acl : Option Acl) (options : TransferOptions)
    {bucket key : String} {size : Nat} (htarget : objectAt target = .ok (bucket, key))
    (hsize : ((source.size through).run h s).1 = .ok size) (hsplits : options.splits size = true)
    {plan : List PlannedPart} (hparts : parts size options.chunkSize = .ok plan)
    (hplan : Consecutive size 0 0 plan) :
    ∃ log, (source.transfer through schedule target acl options).run.events h s =
        (source.size through).events h s ++ log ∧
      TransferLog through source bucket key acl size plan
        (arrivals (max 1 options.maxConcurrency) schedule plan) log
        ((source.transfer through schedule target acl options).run.run h s).1 := by
  have hwidth : 0 < max 1 options.maxConcurrency := by omega
  rw [Source.transfer_eq source through schedule htarget, Program.events_bind, Program.run_bind,
    hsize]
  simp only [hsplits, if_true]
  rw [sendInParts_eq through schedule bucket key size acl options _ hparts]
  refine ⟨_, rfl, ?_⟩
  generalize ((source.size through).run h s).2 = t
  cases hopen : (h (.store through (.initiate bucket key acl)) t).1 with
  | error e =>
    simp only [Program.events, Program.run_call, hopen, Program.run_done]
    exact .refused e
  | ok handle =>
    simp only [Program.events, Program.run_call, hopen]
    refine .opened handle _ _ ?_
    rw [Program.events_bind, Program.run_bind]
    obtain ⟨calls, hcalls, hends⟩ := sendAll_run h
      (fun part => source.sendPart through handle part) hwidth schedule through handle hplan
      (h (.store through (.initiate bucket key acl)) t).2
    have hpart := hcalls.partCalls hplan hsize
    rcases hends with ⟨cause, book, hfirst, hevents, hrun⟩ |
      ⟨list, reply, book, hall, hevents, hrun⟩
    · rw [hevents, hrun]
      exact .partFailed calls cause _ hpart hfirst
    · rw [hevents, hrun]
      cases reply with
      | ok _ =>
        simp only [Program.events, Program.run_done, List.append_nil]
        exact .completed calls list hpart hall
      | error cause =>
        simp only [Program.events, Program.run_call, Program.run_done, List.append_assoc]
        exact .completionFailed calls list cause _ hpart hall

end Log

/-! ## Over a store in memory -/

section Memory

variable {h : Handler σ} {reaches : Access → Prop} {view : σ → Store} {through : Access}
  {source : Source} {handle : UploadHandle} {id : String} {s s' : σ}

theorem sameBut_store (hserves : h.Serves reaches view) {c : StoreCall}
    (hc : ∀ s : Store, Store.SameBut id s (s.answer c).2) (s : σ) :
    Store.SameBut id (view s) (view (h (.store through c) s).2) := by
  rcases hserves.view_cases through c s with ⟨-, hview⟩ | hview
  · rw [hview]
    exact hc (view s)
  · rw [hview]
    exact .refl id _

/-- Sending a part changes the session at most. -/
theorem sendsPart_sameBut (hserves : h.Serves reaches view) {part : PlannedPart}
    {events : List Event} {reply : Result String}
    (hsends : source.SendsPart through handle part events reply) (hreplay : h.Replays s events s') :
    Store.SameBut handle.uploadId (view s) (view s') := by
  cases hsends with
  | object location reply =>
    obtain ⟨-, rfl⟩ := hreplay
    exact sameBut_store hserves (fun s => Store.copyPart_sameBut s _ _ _ _ _) s
  | bytes data reply =>
    obtain ⟨-, rfl⟩ := hreplay
    exact sameBut_store hserves (fun s => Store.keepPart_sameBut s _ _ _ _) s
  | file name content reply =>
    obtain ⟨-, -, rfl⟩ := hreplay
    have hpart : Store.SameBut handle.uploadId (view (h (.file (.readAt name part.range)) s).2)
        (view (h (.store through (.uploadPart handle part.number part.range content))
          (h (.file (.readAt name part.range)) s).2).2) :=
      sameBut_store hserves (fun s => Store.keepPart_sameBut s _ _ _ _) _
    rw [hserves.file] at hpart
    exact hpart
  | unread name e =>
    obtain ⟨-, rfl⟩ := hreplay
    rw [hserves.file]
    exact .refl _ _

theorem sends_sameBut (hserves : h.Serves reaches view) {calls : List PartCall}
    (hcalls : ∀ c ∈ calls, source.SendsPart through handle c.part c.events c.reply) :
    ∀ {s : σ}, h.Replays s (calls.flatMap (·.events)) s' →
      Store.SameBut handle.uploadId (view s) (view s') := by
  induction calls with
  | nil =>
    rintro s rfl
    exact .refl _ _
  | cons c rest ih =>
    intro s hreplay
    rw [List.flatMap_cons, Handler.replays_append] at hreplay
    obtain ⟨t, hc, hrest⟩ := hreplay
    exact (sendsPart_sameBut hserves (hcalls c List.mem_cons_self) hc).trans
      (ih (fun d hd => hcalls d (List.mem_cons_of_mem _ hd)) hrest)

/-- **A transfer that fails leaves nothing behind**: no object and no other session has changed, and
its own session is gone. -/
theorem SessionLog.sameBut (hserves : h.Serves reaches view) (hreach : reaches through)
    (habort : ∀ s, view (h (.store through (.abort handle)) s).2 = ((view s).abort handle).2)
    {key : String} {size : Nat} {plan order : List PlannedPart} {log : List Event}
    {result : Result Transferred} {e : FsError}
    (hlog : SessionLog through source handle key size plan order log result)
    (hresult : result = .error e) (hreplay : h.Replays s log s') :
    Store.SameBut handle.uploadId (view s) (view s') ∧
      (view s').uploads.get? handle.uploadId = none := by
  cases hlog with
  | completed => cases hresult
  | partFailed calls cause reply parts first =>
    obtain ⟨t, hsends, -, rfl⟩ := (Handler.replays_append h _ _ s s').1 hreplay
    obtain ⟨hsame, hgone⟩ := Store.abort_sameBut (view t) handle
    rw [habort]
    exact ⟨(sends_sameBut hserves parts.sends hsends).trans hsame, hgone⟩
  | completionFailed calls list cause reply parts all =>
    obtain ⟨t, hsends, hcomplete, -, rfl⟩ := (Handler.replays_append h _ _ s s').1 hreplay
    have hfailed : Store.SameBut handle.uploadId (view t)
        (view (h (.store through (.complete handle list)) t).2) := by
      rcases hserves.reached through (.complete handle list) t hreach with
        ⟨hreply, hview⟩ | ⟨-, hview⟩
      · rw [hview]
        exact Store.complete_sameBut (hreply.symm.trans hcomplete.symm)
      · rw [hview]
        exact .refl _ _
    obtain ⟨hsame, hgone⟩ :=
      Store.abort_sameBut (view (h (.store through (.complete handle list)) t).2) handle
    rw [habort]
    exact ⟨((sends_sameBut hserves parts.sends hsends).trans hfailed).trans hsame, hgone⟩

/-- Asking for the size changes nothing. -/
theorem size_view (hserves : h.Serves reaches view) (through : Access) (source : Source) (s : σ) :
    view ((source.size through).run h s).2 = view s := by
  cases source with
  | object path =>
    rw [Source.size]
    cases objectAt path with
    | error e => rfl
    | ok location =>
      rcases hserves.view_cases through (.head location.1 location.2) s with ⟨-, hview⟩ | hview
      · exact hview
      · exact hview
  | bytes data => rfl
  | file name => exact hserves.file (.size name) s

end Memory

/-- **Every transfer in parts follows the protocol**, whatever calls fail and in whatever order the
parts arrive.  Over a store in memory whose sessions can be discarded, a transfer that fails leaves
the objects and the other sessions as they were, and its own session is gone. -/
theorem transfer_follows_protocol (h : Handler σ) (s : σ) (through : Access) (schedule : Schedule)
    (source : Source) {target : Path} (acl : Option Acl) (options : TransferOptions)
    {bucket key : String} {size : Nat} (htarget : objectAt target = .ok (bucket, key))
    (hsize : ((source.size through).run h s).1 = .ok size) (hsplits : options.splits size = true)
    (hbound : size < 2 ^ 63) (hcount : ceilDiv size options.chunkSize < numberLimit) :
    ∃ plan log, parts size options.chunkSize = .ok plan ∧
      plan.length = ceilDiv size options.chunkSize ∧
      (arrivals (max 1 options.maxConcurrency) schedule plan).Perm plan ∧
      let final := (source.transfer through schedule target acl options).run.run h.recorded ([], s)
      final.2.1 = (source.size through).events h s ++ log ∧
      TransferLog through source bucket key acl size plan
        (arrivals (max 1 options.maxConcurrency) schedule plan) log final.1 ∧
      ∀ (reaches : Access → Prop) (view : σ → Store), h.Serves reaches view → reaches through →
        (∀ handle t, view (h (.store through (.abort handle)) t).2 =
          ((view t).abort handle).2) →
        ∀ handle rest e,
          log = ⟨.store through (.initiate bucket key acl), Except.ok handle⟩ :: rest →
          final.1 = .error e →
          (view final.2.2).buckets = (view s).buckets ∧
            (view final.2.2).uploads = (view s).uploads.erase handle.uploadId := by
  obtain ⟨hchunk, hlt⟩ := TransferOptions.splits_iff.1 hsplits
  have hparts := parts_eq_ok hchunk hcount (by rw [positionLimit]; omega)
  obtain ⟨hplan, hlength⟩ := consecutive_of_parts hparts
  obtain ⟨log, hevents, hlog⟩ := transfer_log h s through schedule source acl options htarget hsize
    hsplits hparts hplan
  refine ⟨_, log, hparts, hlength, arrivals_perm (by omega) schedule _, ?_⟩
  rw [Program.run_recorded, hevents]
  refine ⟨rfl, hlog, fun reaches view hserves hreach habort handle rest e hopen hfails => ?_⟩
  have hsession := Program.replays_behind hevents
  have ht := size_view hserves through source s
  generalize ((source.size through).run h s).2 = t at hsession ht
  dsimp only at hfails ⊢
  generalize ((source.transfer through schedule target acl options).run.run h s).1 = result
    at hlog hfails
  cases hlog with
  | refused e => cases hopen
  | opened handle' rest' result session =>
    cases hopen
    obtain ⟨hreply, hrest⟩ := hsession
    obtain ⟨hsame, hgone⟩ := session.sameBut hserves hreach (habort handle) hfails hrest
    have hopened : Store.SameBut handle.uploadId (view t)
        (view (h (.store through (.initiate bucket key acl)) t).2) := by
      obtain ⟨hpassed, hview⟩ := hserves.passed hreach hreply.symm
      rw [hview]
      exact Store.initiate_sameBut hpassed
    have hall := hopened.trans hsame
    rw [ht] at hall
    exact ⟨hall.buckets, hall.uploads_eq hgone⟩

/-- Five bytes in three parts, of which the second is refused.  The session is gone afterwards. -/
theorem transfer_follows_protocol_refused :
    let target : Path := ⟨0, true, ["b", "k"]⟩
    let source : Source := .bytes [1, 2, 3, 4, 5]
    let h := Store.several fun _ => FaultyStore.faultOf? { part := [2] }
    let store := (Store.new 1 .epoch).setBucket "b" .empty
    let s : (StoreId → Store) × LocalFile := (fun _ => store, .absent)
    let final := (source.transfer ⟨0, 0⟩ id target none ⟨2, 2⟩).run.run h.recorded ([], s)
    objectAt target = .ok ("b", "k") ∧ ((source.size ⟨0, 0⟩).run h s).1 = .ok 5 ∧
      (⟨2, 2⟩ : TransferOptions).splits 5 = true ∧ ceilDiv 5 2 < numberLimit ∧
      ∃ plan log e, parts 5 2 = .ok plan ∧ plan.length = 3 ∧
        TransferLog ⟨0, 0⟩ source "b" "k" none 5 plan (arrivals 2 id plan) log final.1 ∧
        final.1 = .error e ∧ (final.2.2.1 0).buckets = store.buckets ∧
        (final.2.2.1 0).uploads = .empty := by
  intro target source h store s final
  have htarget : objectAt target = .ok ("b", "k") := rfl
  have hsize : ((source.size ⟨0, 0⟩).run h s).1 = .ok 5 := rfl
  have hsplits : (⟨2, 2⟩ : TransferOptions).splits 5 = true := rfl
  have hcount : ceilDiv 5 2 < numberLimit := by decide
  obtain ⟨plan, log, hparts, hlength, -, hlog, hprotocol, hview⟩ :=
    transfer_follows_protocol h s ⟨0, 0⟩ id source none ⟨2, 2⟩ htarget hsize hsplits
      (by decide) hcount
  obtain ⟨hopen, hfails⟩ : final.2.1.head? = some ⟨.store ⟨0, 0⟩ (.initiate "b" "k" none),
      Except.ok ⟨"b", "k", Store.uploadId 0⟩⟩ ∧ final.1.toOption = none := by
    subst final h s store source target
    exact ⟨rfl, rfl⟩
  obtain ⟨rest, hopen⟩ := List.head?_eq_some_iff.1 hopen
  cases hresult : final.1 with
  | ok outcome =>
    rw [hresult] at hfails
    cases hfails
  | error e =>
    obtain ⟨hbuckets, huploads⟩ := hview _ (fun s => s.1 0) (Store.several_serves _ 0) rfl
      (fun _ _ => rfl) _ rest e (hlog.symm.trans hopen) hresult
    exact ⟨htarget, hsize, hsplits, hcount, plan, log, e, hparts, hlength, hresult ▸ hprotocol,
      rfl, hbuckets, huploads⟩

end BucketFs.Transfer
