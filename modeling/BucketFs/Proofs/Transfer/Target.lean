import BucketFs.Proofs.Result
import BucketFs.Proofs.Store.Touched
import BucketFs.Proofs.Transfer.Content

/-!
# What a transfer does to the objects of a store

Calls may fail, and the content may have any size.

* `sendParts_keeps` — sending parts keeps what sending each of them keeps.
* `transfer_within` — a transfer touches its target and no other object.
* `consecutive_of_sendAll` — a session is completed only with parts that cover the content, so a
  plan whose positions left their range is never completed.
* `transfer_content` — a transfer that succeeds has stored the content.
-/

namespace BucketFs.Transfer

open PlannedPart

variable {σ : Type}

/-! ## The book of a session -/

/-- Two states of the book of one session. -/
structure SameUpload (book book' : SessionBook) : Prop where
  handle : book'.handle = book.handle
  size : book'.size = book.size
  parts : book'.parts = book.parts
  places : book'.etags.length = book.etags.length

theorem SameUpload.refl (book : SessionBook) : SameUpload book book := ⟨rfl, rfl, rfl, rfl⟩

theorem SameUpload.trans {a b c : SessionBook} (hab : SameUpload a b) (hbc : SameUpload b c) :
    SameUpload a c :=
  ⟨hbc.handle.trans hab.handle, hbc.size.trans hab.size, hbc.parts.trans hab.parts,
    hbc.places.trans hab.places⟩

theorem sameUpload_note {book book' : SessionBook} {number : Nat} {etag : String}
    (h : book.note number etag = .ok book') : SameUpload book book' := by
  unfold SessionBook.note at h
  split at h
  · cases h
  · split at h
    · cases h
    · cases h
      exact ⟨rfl, rfl, rfl, List.length_set⟩

theorem sameUpload_received {book book' : SessionBook} {number : Nat} {reply : Result String}
    (h : reply.bind (book.note number) = .ok book') : SameUpload book book' := by
  cases reply with
  | error e => cases h
  | ok etag => exact sameUpload_note h

section Parts

variable {h : Handler σ} {allowed : Call → σ → Prop} {kept : σ → Prop}
  {send : PlannedPart → Program (Result String)}

/-- **Sending parts keeps what sending each of them keeps**, makes no other calls, and stays with
one session. -/
theorem sendParts_keeps
    (hsend : ∀ part s, kept s → (send part).Along h allowed s ∧ kept ((send part).run h s).2)
    (width : Nat) (schedule : Schedule) (steps : Nat) :
    ∀ (pool : Pool) (book : SessionBook) (s : σ), kept s →
      (sendParts send width schedule steps pool book).Along h allowed s ∧
        kept ((sendParts send width schedule steps pool book).run h s).2 ∧
        SameUpload book ((sendParts send width schedule steps pool book).run h s).1.2 := by
  induction steps with
  | zero =>
    intro pool book s hs
    exact ⟨trivial, hs, .refl book⟩
  | succ steps ih =>
    intro pool book s hs
    rw [sendParts]
    split
    · exact ⟨trivial, hs, .refl book⟩
    · rename_i part _
      obtain ⟨halong, hkept⟩ := hsend part s hs
      rw [Program.along_bind, Program.run_bind]
      obtain ⟨hrest, hkept', hsame⟩ := ih _ book _ hkept
      exact ⟨⟨halong, hrest⟩, hkept', hsame⟩
    · rename_i part reply _
      cases hnote : reply.bind (book.note part.number) with
      | error e => exact ⟨trivial, hs, .refl book⟩
      | ok book' =>
        obtain ⟨hrest, hkept', hsame⟩ := ih _ book' s hs
        exact ⟨hrest, hkept', (sameUpload_received hnote).trans hsame⟩

end Parts

/-! ## What a transfer touches -/

section Touches

variable {h : Handler σ} {reaches : Access → Prop} {view : σ → Store} {through : Access}
  {handle : UploadHandle} {bucket key : String}

/-- Whether a store that is reached has a session for an object. -/
def HasSession (reaches : Access → Prop) (view : σ → Store) (through : Access)
    (handle : UploadHandle) (bucket key : String) (s : σ) : Prop :=
  reaches through → ∃ u, (view s).uploads.get? handle.uploadId = some u ∧ u.bucket = bucket ∧
    u.key = key

theorem keepPart_session {s : Store} {u : OpenSession}
    (hu : s.uploads.get? handle.uploadId = some u) (number : Nat) (range : ByteRange)
    (data : Bytes) :
    ∃ u', (s.keepPart handle number range data).2.uploads.get? handle.uploadId = some u' ∧
      u'.bucket = u.bucket ∧ u'.key = u.key := by
  unfold Store.keepPart
  split
  · exact ⟨u, hu, rfl, rfl⟩
  · split
    · exact ⟨u, hu, rfl, rfl⟩
    · rw [hu]
      exact ⟨_, KeyMap.get?_insert_self _ _ _, rfl, rfl⟩

/-- A session stays open while its parts are sent. -/
theorem HasSession.part (hserves : h.Serves reaches view) {s : σ}
    (hs : HasSession reaches view through handle bucket key s) {c : StoreCall}
    (hc : ∀ (t : Store) (u : OpenSession), t.uploads.get? handle.uploadId = some u →
      ∃ u' : OpenSession, (t.answer c).2.uploads.get? handle.uploadId = some u' ∧
        u'.bucket = u.bucket ∧ u'.key = u.key) :
    HasSession reaches view through handle bucket key (h (.store through c) s).2 := by
  intro hreach
  obtain ⟨u, hu, rfl, rfl⟩ := hs hreach
  rcases hserves.view_cases through c s with ⟨-, hview⟩ | hview
  · rw [hview]
    exact hc _ u hu
  · rw [hview]
    exact ⟨u, hu, rfl, rfl⟩

/-- Sending a part touches no object and leaves its session open. -/
theorem sendPart_keeps (hserves : h.Serves reaches view) (may : ObjectSet)
    (source : Source) (part : PlannedPart) (s : σ)
    (hs : HasSession reaches view through handle bucket key s) :
    (source.sendPart through handle part).Along h (Call.Within reaches view may) s ∧
      HasSession reaches view through handle bucket key
        ((source.sendPart through handle part).run h s).2 := by
  have hupload : ∀ (data : Bytes) (t : σ), HasSession reaches view through handle bucket key t →
      HasSession reaches view through handle bucket key
        (h (.store through (.uploadPart handle part.number part.range data)) t).2 :=
    fun data t ht => ht.part hserves fun t u hu => keepPart_session hu _ _ _
  cases source with
  | object path =>
    rw [Source.sendPart]
    cases objectAt path with
    | error e => exact ⟨trivial, hs⟩
    | ok location =>
      obtain ⟨sourceBucket, sourceKey⟩ := location
      refine ⟨⟨.of_untouched rfl, trivial⟩, hs.part hserves fun t u hu => ?_⟩
      simp only [Store.answer, Store.copyPart]
      split
      · exact ⟨u, hu, rfl, rfl⟩
      · exact keepPart_session hu _ _ _
  | bytes data => exact ⟨⟨.of_untouched rfl, trivial⟩, hupload _ s hs⟩
  | file name =>
    have hfile : HasSession reaches view through handle bucket key
        (h (.file (.readAt name part.range)) s).2 := by
      intro hreach
      rw [hserves.file]
      exact hs hreach
    rw [Source.sendPart]
    cases hread : (h (.file (.readAt name part.range)) s).1 with
    | error e =>
      simp only [Program.Along, Program.run_call, hread, Program.run_done]
      exact ⟨⟨trivial, trivial⟩, hfile⟩
    | ok data =>
      simp only [Program.Along, Program.run_call, hread, Program.run_done]
      exact ⟨⟨trivial, .of_untouched rfl, trivial⟩, hupload data _ hfile⟩

/-- A session that was opened is there. -/
theorem initiate_session (hserves : h.Serves reaches view) {acl : Option Acl} {s : σ}
    (hopen : (h (.store through (.initiate bucket key acl)) s).1 = .ok handle) :
    HasSession reaches view through handle bucket key
      (h (.store through (.initiate bucket key acl)) s).2 := by
  intro hreach
  obtain ⟨hanswer, hview⟩ := hserves.passed hreach hopen
  rw [hview]
  simp only [Store.answer, Store.initiate] at hanswer ⊢
  split at hanswer
  · cases hanswer
  · cases hanswer
    exact ⟨_, KeyMap.get?_insert_self _ _ _, rfl, rfl⟩

/-- A session touches the object it was opened for. -/
theorem sendAll_within (hserves : h.Serves reaches view) (source : Source) (width : Nat)
    (schedule : Schedule) (size : Nat) (plan : List PlannedPart) (s : σ)
    (hs : HasSession reaches view through handle bucket key s) :
    (sendAll through (fun part => source.sendPart through handle part) width schedule
      (.start handle size plan)).Along h
        (Call.Within reaches view (.single through bucket key)) s := by
  obtain ⟨book, hstart, hbook⟩ := SessionBook.startSending_start handle size plan
  obtain ⟨halong, hkept, hsame⟩ := sendParts_keeps
    (fun part s hs => sendPart_keeps hserves
      (.single through bucket key) source part s hs)
    width schedule (2 * book.parts.length) ⟨book.parts, []⟩ book s hs
  rw [sendAll, hstart]
  dsimp only
  rw [Program.along_bind]
  refine ⟨halong, ?_⟩
  generalize (sendParts (fun part => source.sendPart through handle part) width schedule
    (2 * book.parts.length) ⟨book.parts, []⟩ book).run h s = final at hkept hsame ⊢
  obtain ⟨⟨result, book'⟩, t⟩ := final
  have hhandle : book'.handle = handle := hsame.handle.trans hbook.handle_eq
  cases result with
  | error e => trivial
  | ok _ =>
    dsimp only
    cases book'.finishedParts with
    | error e => trivial
    | ok list =>
      refine ⟨fun hreach bucket' key' htouched => ?_, ?_⟩
      · obtain ⟨u, hu, rfl, rfl⟩ := hkept hreach
        rw [hhandle, StoreCall.touched?, hu] at htouched
        cases htouched
        exact ⟨rfl, rfl, rfl⟩
      · cases (h (.store through (.complete book'.handle list)) t).1 with
        | error e => trivial
        | ok _ => cases book'.finish <;> trivial

/-- A transfer in parts touches its target, also where it cannot be planned. -/
theorem sendInParts_within (hserves : h.Serves reaches view) (schedule : Schedule) (source : Source)
    (size : Nat) (acl : Option Acl) (options : TransferOptions) (s : σ) :
    (sendInParts through schedule bucket key size acl options fun handle part =>
      source.sendPart through handle part).run.Along h
        (Call.Within reaches view (.single through bucket key)) s := by
  cases hplan : parts size options.chunkSize with
  | error e =>
    rw [sendInParts, hplan, Action.ofResult_error_bind]
    trivial
  | ok plan =>
    rw [sendInParts_eq through schedule bucket key size acl options _ hplan]
    refine ⟨.of_untouched rfl, ?_⟩
    cases hopen : (h (.store through (.initiate bucket key acl)) s).1 with
    | error e => trivial
    | ok handle =>
      dsimp only
      rw [Program.along_bind]
      refine ⟨sendAll_within hserves source _ schedule size plan _
        (initiate_session hserves hopen), ?_⟩
      split
      · trivial
      · exact ⟨.of_untouched rfl, trivial⟩

/-- A single call touches the target. -/
theorem sendWhole_within (source : Source) (acl : Option Acl) (s : σ) :
    (source.sendWhole through bucket key acl).Along h
      (Call.Within reaches view (.single through bucket key)) s := by
  cases source with
  | object path =>
    rw [Source.sendWhole]
    cases objectAt path with
    | error e => trivial
    | ok location =>
      refine ⟨fun _ bucket' key' htouched => ?_, trivial⟩
      cases htouched
      exact ⟨rfl, rfl, rfl⟩
  | bytes data =>
    refine ⟨fun _ bucket' key' htouched => ?_, trivial⟩
    cases htouched
    exact ⟨rfl, rfl, rfl⟩
  | file name =>
    refine ⟨trivial, ?_⟩
    cases (h (.file (.read name)) s).1 with
    | error e => trivial
    | ok data =>
      refine ⟨fun _ bucket' key' htouched => ?_, trivial⟩
      cases htouched
      exact ⟨rfl, rfl, rfl⟩

/-- Asking for the size touches nothing. -/
theorem size_within (source : Source) (may : ObjectSet) (s : σ) :
    (source.size through).Along h (Call.Within reaches view may) s := by
  cases source with
  | object path =>
    rw [Source.size]
    cases objectAt path with
    | error e => trivial
    | ok location => exact ⟨.of_untouched rfl, trivial⟩
  | bytes data => trivial
  | file name => exact ⟨trivial, trivial⟩

/-- **A transfer touches its target** and no other object, whatever fails. -/
theorem transfer_within (hserves : h.Serves reaches view) (schedule : Schedule) {target : Path}
    (htarget : objectAt target = .ok (bucket, key)) (source : Source) (acl : Option Acl)
    (options : TransferOptions) :
    (source.transfer through schedule target acl options).Always h
      (Call.Within reaches view (.single through bucket key)) := by
  intro s
  rw [Source.transfer_eq source through schedule htarget, Program.along_bind]
  refine ⟨size_within source _ s, ?_⟩
  cases ((source.size through).run h s).1 with
  | error e => trivial
  | ok size =>
    dsimp only
    split
    · exact sendInParts_within hserves schedule source size acl options _
    · rw [Program.along_bind]
      refine ⟨sendWhole_within source acl _, ?_⟩
      split <;> trivial

end Touches

/-! ## What a transfer that succeeds has stored -/

section Content

variable {h : Handler σ} {reaches : Access → Prop} {view : σ → Store} {through : Access}
  {source : Source} {size : Nat} {plan : List PlannedPart}

/-- **A session is completed only with parts that cover the content.** -/
theorem consecutive_of_sendAll {handle : UploadHandle} {width : Nat} {schedule : Schedule} {s : σ}
    (hrun : ((sendAll through (fun part => source.sendPart through handle part) width schedule
      (.start handle size plan)).run h s).1.1 = .ok ()) : Consecutive size 0 0 plan := by
  obtain ⟨book, hstart, hbook⟩ := SessionBook.startSending_start handle size plan
  have hsend : ∀ (part : PlannedPart) (s : σ), True →
      (source.sendPart through handle part).Along h (fun _ _ => True) s ∧ True :=
    fun part s _ => ⟨Program.Along.of_forall (fun _ _ => trivial) _ s, trivial⟩
  obtain ⟨-, -, hsame⟩ := sendParts_keeps hsend
    width schedule (2 * book.parts.length) ⟨book.parts, []⟩ book s trivial
  rw [sendAll, hstart] at hrun
  dsimp only at hrun
  rw [Program.run_bind] at hrun
  generalize (sendParts (fun part => source.sendPart through handle part) width schedule
    (2 * book.parts.length) ⟨book.parts, []⟩ book).run h s = final at hsame hrun
  obtain ⟨⟨result, book'⟩, t⟩ := final
  cases result with
  | error e => cases hrun
  | ok _ =>
    dsimp only at hrun hsame
    cases hlist : book'.finishedParts with
    | error e =>
      rw [hlist] at hrun
      cases hrun
    | ok list =>
      have hplaces : book'.parts.length = book'.etags.length := by
        rw [hsame.places, hsame.parts, hbook.etags_eq, hbook.parts_eq, List.length_map]
      have hcovers := (finishFrom_eq_ok_iff.1 hlist).1
      rwa [List.map_fst_zip (Nat.le_of_eq hplaces), hsame.parts, hsame.size, hbook.parts_eq,
        hbook.size_eq] at hcovers

/-- A transfer in parts that succeeds had a plan that covers the content. -/
theorem plan_of_sendInParts {schedule : Schedule} {bucket key : String} {acl : Option Acl}
    {options : TransferOptions} {s : σ} {result : Transferred}
    (hrun : ((sendInParts through schedule bucket key size acl options fun handle part =>
      source.sendPart through handle part).run.run h s).1 = .ok result) :
    ∃ plan, parts size options.chunkSize = .ok plan ∧ Consecutive size 0 0 plan := by
  cases hplan : parts size options.chunkSize with
  | error e =>
    rw [sendInParts, hplan, Action.ofResult_error_bind] at hrun
    cases hrun
  | ok plan =>
    refine ⟨plan, rfl, ?_⟩
    rw [sendInParts_eq through schedule bucket key size acl options _ hplan, Program.run_call]
      at hrun
    cases hopen : (h (.store through (.initiate bucket key acl)) s).1 with
    | error e =>
      rw [hopen] at hrun
      cases hrun
    | ok handle =>
      rw [hopen] at hrun
      dsimp only at hrun
      rw [Program.run_bind] at hrun
      generalize hall : (sendAll through (fun part => source.sendPart through handle part)
        (max 1 options.maxConcurrency) schedule (.start handle size plan)).run h
          (h (.store through (.initiate bucket key acl)) s).2 = final at hrun
      obtain ⟨⟨result', book⟩, t⟩ := final
      cases result' with
      | error cause => cases hrun
      | ok _ => exact consecutive_of_sendAll (congrArg (·.1.1) hall)

theorem size_passed (hsource : ∀ name, source ≠ .file name) {s : σ}
    (hsize : ((source.size through).run h s).1 = .ok size) :
    ∀ e ∈ (source.size through).events h s, Event.Passed (· = through) e := by
  cases source with
  | object path =>
    rw [Source.size] at hsize ⊢
    cases hlocation : objectAt path with
    | error e =>
      rw [hlocation] at hsize
      cases hsize
    | ok location =>
      obtain ⟨bucket, key⟩ := location
      rw [hlocation] at hsize
      dsimp only at hsize ⊢
      rw [Program.run_call, Program.run_done] at hsize
      obtain ⟨info, hinfo, -⟩ := Result.map_eq_ok_iff.1 hsize
      intro e he
      obtain rfl := List.mem_singleton.1 he
      exact ⟨rfl, info, hinfo⟩
  | bytes data => exact List.forall_mem_nil _
  | file name => exact absurd rfl (hsource name)

theorem sendWhole_passed (hsource : ∀ name, source ≠ .file name) {bucket key : String}
    {acl : Option Acl} {s : σ}
    (hrun : ((source.sendWhole through bucket key acl).run h s).1 = .ok ()) :
    ∀ e ∈ (source.sendWhole through bucket key acl).events h s, Event.Passed (· = through) e := by
  cases source with
  | object path =>
    rw [Source.sendWhole] at hrun ⊢
    cases hlocation : objectAt path with
    | error e =>
      rw [hlocation] at hrun
      cases hrun
    | ok location =>
      obtain ⟨sourceBucket, sourceKey⟩ := location
      rw [hlocation] at hrun
      intro e he
      obtain rfl := List.mem_singleton.1 he
      exact ⟨rfl, (), hrun⟩
  | bytes data =>
    rw [Source.sendWhole] at hrun ⊢
    rw [Program.run_call, Program.run_done] at hrun
    obtain ⟨etag, hetag, -⟩ := Result.map_eq_ok_iff.1 hrun
    intro e he
    obtain rfl := List.mem_singleton.1 he
    exact ⟨rfl, etag, hetag⟩
  | file name => exact absurd rfl (hsource name)

/-- When all parts of a plan were sent, every call that sent one succeeded. -/
theorem PartCalls.passed (hsource : ∀ name, source ≠ .file name) {handle : UploadHandle}
    {calls : List PartCall} {list : List FinishedPart}
    (hparts : PartCalls through source handle plan calls) (hall : AllSent plan calls list) :
    ∀ e ∈ calls.flatMap (·.events), Event.Passed (· = through) e := by
  intro e he
  obtain ⟨c, hc, he⟩ := List.mem_flatMap.1 he
  have hreply : ∃ etag, c.reply = .ok etag := by
    obtain ⟨d, hd, hpart, hetag⟩ := hall.sent c.part (hparts.planned c hc)
    have hsame : d = c := List.inj_on_of_nodup_map hparts.distinct hd hc (by rw [hpart])
    rwa [hsame] at hetag
  obtain ⟨etag, hetag⟩ := hreply
  have hsends := hparts.sends c hc
  generalize c.part = part at hsends
  generalize hevents : c.events = events at hsends he
  rw [hetag] at hsends
  cases hsends with
  | object location reply =>
    obtain rfl := List.mem_singleton.1 he
    exact ⟨rfl, etag, rfl⟩
  | bytes data reply =>
    obtain rfl := List.mem_singleton.1 he
    exact ⟨rfl, etag, rfl⟩
  | file name content reply => exact absurd rfl (hsource name)

theorem TransferLog.passed (hsource : ∀ name, source ≠ .file name) {bucket key : String}
    {acl : Option Acl} {order : List PlannedPart} {log : List Event} {result : Transferred}
    (hlog : TransferLog through source bucket key acl size plan order log (.ok result)) :
    ∀ e ∈ log, Event.Passed (· = through) e := by
  cases hlog with
  | opened handle rest result session =>
    rw [List.forall_mem_cons]
    refine ⟨⟨rfl, handle, rfl⟩, ?_⟩
    cases session with
    | completed calls list parts all =>
      rw [List.forall_mem_append, List.forall_mem_singleton]
      exact ⟨parts.passed hsource all, rfl, (), rfl⟩

/-- Every call of a transfer that succeeds has succeeded. -/
theorem transfer_passed (hsource : ∀ name, source ≠ .file name) {schedule : Schedule}
    {target : Path} {bucket key : String} (htarget : objectAt target = .ok (bucket, key))
    {acl : Option Acl} {options : TransferOptions} {s : σ} {result : Transferred}
    (hrun : ((source.transfer through schedule target acl options).run.run h s).1 = .ok result) :
    ∀ e ∈ (source.transfer through schedule target acl options).run.events h s,
      Event.Passed (· = through) e := by
  have htransfer := source.transfer_eq through schedule htarget acl options
  cases hsize : ((source.size through).run h s).1 with
  | error e =>
    rw [htransfer, Program.run_bind, hsize] at hrun
    cases hrun
  | ok size =>
    by_cases hsplits : options.splits size = true
    · have hparts := hrun
      rw [htransfer, Program.run_bind, hsize] at hparts
      dsimp only at hparts
      rw [if_pos hsplits] at hparts
      obtain ⟨plan, hplan, hcovers⟩ := plan_of_sendInParts hparts
      obtain ⟨log, hevents, hlog⟩ := transfer_log h s through schedule source acl options htarget
        hsize hsplits hplan hcovers
      rw [hrun] at hlog
      rw [hevents, List.forall_mem_append]
      exact ⟨size_passed hsource hsize, hlog.passed hsource⟩
    · rw [htransfer, Program.run_bind, hsize] at hrun
      rw [htransfer, Program.events_bind, hsize, List.forall_mem_append]
      refine ⟨size_passed hsource hsize, ?_⟩
      dsimp only at hrun ⊢
      rw [if_neg hsplits] at hrun ⊢
      rw [Program.run_bind] at hrun
      rw [Program.events_bind, List.forall_mem_append]
      cases hwhole : ((source.sendWhole through bucket key acl).run h
          ((source.size through).run h s).2).1 with
      | error e =>
        rw [hwhole] at hrun
        cases hrun
      | ok _ => exact ⟨sendWhole_passed hsource hwhole, List.forall_mem_nil _⟩

section Memory

variable {s : Store} {file : LocalFile} {schedule : Schedule} {target : Path}
  {bucket key : String} {acl : Option Acl} {options : TransferOptions} {content : Bytes}
  {result : Transferred}

/-- A transfer that is sent whole and succeeds has a bucket to write into. -/
theorem bucket_of_sendWhole (hcontent : source.content? s file = some content)
    (hrun : ((source.sendWhole through bucket key acl).run Store.handler (s, file)).1 = .ok ()) :
    ∃ b, s.bucket? bucket = some b := by
  cases hb : s.bucket? bucket with
  | some b => exact ⟨b, rfl⟩
  | none =>
    have hput : ∀ data acl, (s.put bucket key data acl).1 = .error (.notFound bucket "") := by
      intro data acl
      simp only [Store.put, Store.write, hb]
    cases source with
    | object path =>
      obtain ⟨sourceBucket, sourceKey, o, hlocation, ho, -⟩ := Source.content?_object hcontent
      simp only [Source.sendWhole, hlocation, Program.run_call, Program.run_done, Store.handler,
        Store.answer, Store.copy, ho, Store.write, hb] at hrun
      cases hrun
    | bytes data =>
      simp only [Source.sendWhole, Program.run_call, Program.run_done, Store.handler, Store.answer,
        hput] at hrun
      cases hrun
    | file name =>
      obtain rfl := Source.content?_file hcontent
      simp only [Source.sendWhole, Program.run_call, Program.run_done, Store.handler, Store.answer,
        LocalFile.answer, hput] at hrun
      cases hrun

/-- Over a store that answers every call, a transfer that succeeds has stored the content, whatever
the size. -/
theorem content_of_transfer (htarget : objectAt target = .ok (bucket, key))
    (hcontent : source.content? s file = some content)
    (hrun : ((source.transfer through schedule target acl options).run.run Store.handler
      (s, file)).1 = .ok result) :
    ((source.transfer through schedule target acl options).run.run Store.handler
      (s, file)).2.1.content? bucket key = some content := by
  have htransfer := source.transfer_eq through schedule htarget acl options
  have hsteps := hrun
  rw [htransfer, Program.run_bind, size_run through hcontent] at hsteps
  dsimp only at hsteps
  by_cases hsplits : options.splits content.length = true
  · rw [if_pos hsplits] at hsteps
    obtain ⟨plan, hplan, hcovers⟩ := plan_of_sendInParts hsteps
    have hbucket : ∃ b, s.bucket? bucket = some b := by
      cases hb : s.bucket? bucket with
      | some b => exact ⟨b, rfl⟩
      | none =>
        rw [sendInParts_eq through schedule bucket key content.length acl options _ hplan,
          Program.run_call] at hsteps
        simp only [Store.handler, Store.answer, Store.initiate, hb] at hsteps
        cases hsteps
    obtain ⟨b, hb⟩ := hbucket
    have hchunk := TransferOptions.splits_iff.1 hsplits
    obtain ⟨s', hexact, hwrote, -⟩ := transfer_parts through schedule acl htarget hb hcontent hsplits
      hplan hcovers (hcovers.ne_nil (by omega))
    rw [hexact]
    exact hwrote.content
  · rw [if_neg hsplits, Program.run_bind] at hsteps
    have hwhole : ((source.sendWhole through bucket key acl).run Store.handler (s, file)).1 =
        .ok () := by
      cases hresult : ((source.sendWhole through bucket key acl).run Store.handler (s, file)).1 with
      | ok _ => rfl
      | error e =>
        rw [hresult] at hsteps
        cases hsteps
    obtain ⟨b, hb⟩ := bucket_of_sendWhole hcontent hwhole
    obtain ⟨s', hexact, hwrote, -⟩ :=
      transfer_whole through schedule acl htarget hb hcontent hsplits
    rw [hexact]
    exact hwrote.content

end Memory

/-- **A transfer that succeeds has stored the content**, also over a store that may fail. -/
theorem transfer_content {reaches : Access → Prop} {view : σ → Store}
    (hserves : h.Serves reaches view) (hreach : reaches through)
    (hsource : ∀ name, source ≠ .file name) {schedule : Schedule} {target : Path}
    {bucket key : String} (htarget : objectAt target = .ok (bucket, key)) {acl : Option Acl}
    {options : TransferOptions} {s : σ} {result : Transferred} {content : Bytes}
    (hcontent : source.content? (view s) .absent = some content)
    (hrun : ((source.transfer through schedule target acl options).run.run h s).1 = .ok result) :
    (view ((source.transfer through schedule target acl options).run.run h s).2).content?
      bucket key = some content := by
  have hreached : ∀ e ∈ (source.transfer through schedule target acl options).run.events h s,
      Event.Passed reaches e := by
    intro e he
    have hpassed := transfer_passed hsource htarget hrun e he
    obtain ⟨c, reply⟩ := e
    cases c with
    | file c => exact hpassed
    | store a c =>
      obtain ⟨rfl, hreply⟩ := hpassed
      exact ⟨hreach, hreply⟩
  -- nothing failed, so the run is that over the store itself
  have hexact := hserves.run_passed .absent hreached
  have hok : ((source.transfer through schedule target acl options).run.run Store.handler
      (view s, .absent)).1 = .ok result := by
    rw [hexact]
    exact hrun
  have hstored := content_of_transfer htarget hcontent hok
  rwa [hexact] at hstored

end Content

end BucketFs.Transfer
