import BucketFs.Proofs.Store.Objects
import BucketFs.Proofs.Transfer.Assembly
import BucketFs.Proofs.Transfer.Protocol

/-!
# What a transfer stores

Over a store in memory that answers every call, a transfer stores the bytes of its source, however
it is split and in whatever order its parts arrive.

* `Underway` — the store while parts are being sent: it holds the slices of those that were.
* `sends_underway` — every part of a plan that is sent is kept.
* `sendWhole_wrote`, `session_wrote` — a single call and a whole session write the content.
* `transfer_whole`, `transfer_parts`, `transfer_wrote`, `transfer_exact` — so does every transfer, and
  it writes nothing else.
-/

namespace BucketFs.Transfer

open PlannedPart

/-- The bytes that a source has at present. -/
def Source.content? (s : Store) (file : LocalFile) : Source → Option Bytes
  | .object path =>
    match objectAt path with
    | .error _ => none
    | .ok (bucket, key) => s.content? bucket key
  | .bytes data => some data
  | .file _ =>
    match file with
    | .regular content => some content
    | _ => none

section Source

variable {s : Store} {file : LocalFile} {source : Source} {content : Bytes}

theorem Source.content?_object {path : Path}
    (h : (Source.object path).content? s file = some content) :
    ∃ bucket key o, objectAt path = .ok (bucket, key) ∧ s.find bucket key = .ok o ∧
      o.data = content := by
  rw [Source.content?] at h
  split at h
  · cases h
  · rename_i bucket key hlocation
    obtain ⟨o, ho, hdata⟩ := Store.find_of_content? h
    exact ⟨bucket, key, o, hlocation, ho, hdata⟩

theorem Source.content?_file {name : String}
    (h : (Source.file name).content? s file = some content) : file = .regular content := by
  cases file with
  | absent => cases h
  | directory size => cases h
  | regular data =>
    cases h
    rfl

/-- A range within a file can be read. -/
theorem readAt_eq_ok {name : String} {range : ByteRange} (h : range.stop ≤ content.length) :
    (LocalFile.regular content).answer (.readAt name range) =
      .ok (content.slice range.start range.stop) :=
  if_pos (.inl h)

theorem Source.content?_congr {s' : Store} (h : s'.buckets = s.buckets) (source : Source) :
    source.content? s' file = source.content? s file := by
  cases source with
  | object path =>
    rw [Source.content?, Source.content?]
    cases objectAt path with
    | error e => rfl
    | ok location =>
      simp only [Store.content?, Store.object?_congr h]
  | bytes data => rfl
  | file name => rfl

/-- A source reports the size of its content, and asking for it changes nothing. -/
theorem size_run (through : Access) (hcontent : source.content? s file = some content) :
    (source.size through).run Store.handler (s, file) = (.ok content.length, (s, file)) := by
  cases source with
  | object path =>
    obtain ⟨bucket, key, o, hlocation, ho, rfl⟩ := Source.content?_object hcontent
    simp only [Source.size, hlocation, Program.run_call, Program.run_done, Store.handler,
      Store.answer, Store.head, ho, Except.map, ObjectRecord.info]
  | bytes data =>
    cases hcontent
    rfl
  | file name =>
    rw [Source.content?_file hcontent]
    rfl

/-! ## A single call -/

/-- **A single call writes the content** and leaves the sessions as they are. -/
theorem sendWhole_wrote (through : Access) {bucket : String} {b : Bucket} (key : String)
    (acl : Option Acl) (hcontent : source.content? s file = some content)
    (hb : s.bucket? bucket = some b) :
    ∃ s', (source.sendWhole through bucket key acl).run Store.handler (s, file) =
        (.ok (), (s', file)) ∧
      Store.Wrote s s' bucket key content (acl.getD .byDefault) ∧ s'.uploads = s.uploads := by
  cases source with
  | object path =>
    obtain ⟨sourceBucket, sourceKey, o, hlocation, ho, rfl⟩ := Source.content?_object hcontent
    refine ⟨_, ?_, Store.wrote_setBucket hb key (s.stamp o.data o.etag (acl.getD .byDefault)), rfl⟩
    simp only [Source.sendWhole, hlocation, Program.run_call, Program.run_done, Store.handler,
      Store.answer, Store.copy, ho, Store.write_eq_ok hb]
  | bytes data =>
    cases hcontent
    refine ⟨_, ?_, Store.wrote_setBucket hb key
      (s.stamp content (Etag.ofContent content) (acl.getD .byDefault)), rfl⟩
    simp only [Source.sendWhole, Program.run_call, Program.run_done, Store.handler, Store.answer,
      Store.put, Store.write_eq_ok hb, Except.map]
  | file name =>
    obtain rfl := Source.content?_file hcontent
    refine ⟨_, ?_, Store.wrote_setBucket hb key
      (s.stamp content (Etag.ofContent content) (acl.getD .byDefault)), rfl⟩
    simp only [Source.sendWhole, Program.run_call, Program.run_done, Store.handler, Store.answer,
      LocalFile.answer, Store.put, Store.write_eq_ok hb, Except.map]

end Source

/-! ## A session -/

/-- A store while the parts of a session are being sent.  It holds the slices of the parts in
`sent`, and its objects are still those of the store before. -/
structure Underway (s : Store) (file : LocalFile) (handle : UploadHandle) (acl : Acl)
    (content : Bytes) (sent : List PlannedPart) (t : Store × LocalFile) : Prop where
  buckets : t.1.buckets = s.buckets
  file_eq : t.2 = file
  session : ∃ u, t.1.uploads.get? handle.uploadId = some u ∧ u.bucket = handle.bucket ∧
    u.key = handle.key ∧ u.acl = acl ∧
    ∀ p ∈ sent, u.part? p.number = some (storedPart content p)
  others : ∀ id, id ≠ handle.uploadId → t.1.uploads.get? id = s.uploads.get? id

section Underway

variable {s : Store} {file : LocalFile} {source : Source} {content : Bytes} {through : Access}
  {handle : UploadHandle} {acl : Acl} {plan sent : List PlannedPart} {part : PlannedPart}
  {t t' : Store × LocalFile}

/-- A part whose bytes reach the store is kept. -/
theorem keepPart_underway (h : Underway s file handle acl content sent t)
    (hplan : Consecutive content.length 0 0 plan) (hsent : ∀ p ∈ sent, p ∈ plan)
    (hpart : part ∈ plan) :
    (t.1.keepPart handle part.number part.range (slicePart content part)).1 =
        .ok (Etag.ofContent (slicePart content part)) ∧
      Underway s file handle acl content (part :: sent)
        ((t.1.keepPart handle part.number part.range (slicePart content part)).2, t.2) := by
  obtain ⟨u, hu, hbucket, hkey, hacl, hkept⟩ := h.session
  have hnumber := hplan.number_mem hpart
  have hrange := hplan.range_mem hpart
  have hlength : part.range.stop - part.range.start = (slicePart content part).length :=
    (Bytes.length_slice hrange.2).symm
  rw [Store.keepPart_eq_ok hu (by omega) hlength]
  refine ⟨rfl, h.buckets, h.file_eq, ⟨_, KeyMap.get?_insert_self _ _ _, hbucket, hkey, hacl, ?_⟩,
    fun id hid => ?_⟩
  · intro p hp
    rw [OpenSession.part?_setPart]
    by_cases heq : p.number = part.number
    · have hplanned : p ∈ plan := (List.mem_cons.1 hp).elim (fun he => he ▸ hpart) (hsent p)
      rw [if_pos heq, hplan.eq_of_number hplanned hpart heq]
      rfl
    · rw [if_neg heq]
      rcases List.mem_cons.1 hp with rfl | hp
      · exact absurd rfl heq
      · exact hkept p hp
  · exact (KeyMap.get?_insert_of_ne hid).trans (h.others id hid)

/-- **A part that is sent is kept**, whatever source it is from. -/
theorem send_underway (h : Underway s file handle acl content sent t)
    (hcontent : source.content? s file = some content)
    (hplan : Consecutive content.length 0 0 plan) (hsent : ∀ p ∈ sent, p ∈ plan)
    (hpart : part ∈ plan) {events : List Event} {reply : Result String}
    (hsends : source.SendsPart through handle part events reply)
    (hreplay : Store.handler.Replays t events t') :
    reply = .ok (Etag.ofContent (slicePart content part)) ∧
      Underway s file handle acl content (part :: sent) t' := by
  obtain ⟨hreply, hkept⟩ := keepPart_underway h hplan hsent hpart
  have hrange := hplan.range_mem hpart
  have hcontent' : source.content? t.1 t.2 = some content := by
    rw [h.file_eq, Source.content?_congr h.buckets]
    exact hcontent
  obtain ⟨store, file'⟩ := t
  cases hsends with
  | @object path bucket key location reply =>
    obtain ⟨bucket', key', o, hlocation, ho, hdata⟩ := Source.content?_object hcontent'
    rw [location] at hlocation
    cases hlocation
    have hget : store.get bucket key (some part.range) = .ok (slicePart content part) := by
      rw [Store.get, ho]
      dsimp only
      rw [hdata, if_neg (by omega)]
      rfl
    obtain ⟨hanswer, rfl⟩ := hreplay
    simp only [Store.handler, Store.answer, Store.copyPart, hget] at hanswer ⊢
    exact ⟨hanswer.trans hreply, hkept⟩
  | bytes data reply =>
    cases hcontent'
    obtain ⟨hanswer, rfl⟩ := hreplay
    exact ⟨hanswer.trans hreply, hkept⟩
  | file name read reply =>
    obtain rfl := Source.content?_file hcontent'
    obtain ⟨hread, hanswer, rfl⟩ := hreplay
    have hslice : read = slicePart content part :=
      Except.ok.inj (hread.trans (readAt_eq_ok hrange.2))
    subst hslice
    exact ⟨hanswer.trans hreply, hkept⟩
  | unread name e =>
    obtain rfl := Source.content?_file hcontent'
    obtain ⟨hread, -⟩ := hreplay
    exact absurd (hread.trans (readAt_eq_ok hrange.2)) (by simp)

/-- **All parts that are sent are kept**, in whatever order they are sent. -/
theorem sends_underway (hcontent : source.content? s file = some content)
    (hplan : Consecutive content.length 0 0 plan) {calls : List PartCall} :
    ∀ {sent : List PlannedPart} {t : Store × LocalFile},
      (∀ c ∈ calls, source.SendsPart through handle c.part c.events c.reply) →
      (∀ c ∈ calls, c.part ∈ plan) → (∀ p ∈ sent, p ∈ plan) →
      Underway s file handle acl content sent t →
      Store.handler.Replays t (calls.flatMap (·.events)) t' →
      (∀ c ∈ calls, c.reply = .ok (Etag.ofContent (slicePart content c.part))) ∧
        Underway s file handle acl content ((calls.map (·.part)).reverse ++ sent) t' := by
  induction calls with
  | nil =>
    rintro sent t - - - h rfl
    exact ⟨by simp, h⟩
  | cons c rest ih =>
    intro sent t hsends hplanned hsent h hreplay
    rw [List.flatMap_cons, Handler.replays_append] at hreplay
    obtain ⟨t₁, hc, hrest⟩ := hreplay
    have hpart := hplanned c List.mem_cons_self
    obtain ⟨hreply, h₁⟩ := send_underway h hcontent hplan hsent hpart
      (hsends c List.mem_cons_self) hc
    obtain ⟨hreplies, h'⟩ := ih (fun d hd => hsends d (List.mem_cons_of_mem _ hd))
      (fun d hd => hplanned d (List.mem_cons_of_mem _ hd))
      (fun p hp => (List.mem_cons.1 hp).elim (fun he => he ▸ hpart) (hsent p)) h₁ hrest
    refine ⟨fun d hd => ?_, ?_⟩
    · rcases List.mem_cons.1 hd with rfl | hd
      · exact hreply
      · exact hreplies d hd
    · rwa [List.map_cons, List.reverse_cons, List.append_assoc, List.singleton_append]

/-- A list with the tag of every part names the parts of the plan as the store has them. -/
theorem AllSent.list_eq {calls : List PartCall} {list : List FinishedPart} {size : Nat}
    (h : AllSent plan calls list) (hplan : Consecutive size 0 0 plan)
    (hplanned : ∀ c ∈ calls, c.part ∈ plan) (tag : PlannedPart → String)
    (hreplies : ∀ c ∈ calls, c.reply = .ok (tag c.part)) :
    list = plan.map fun p => ⟨p.number, tag p⟩ := by
  have hnumbers : list.map (·.number) = plan.map (·.number) := by
    rw [h.numbers, hplan.numbers]
  have hlength : list.length = plan.length := by
    have := congrArg List.length hnumbers
    rwa [List.length_map, List.length_map] at this
  refine List.ext_getElem (by rw [hlength, List.length_map]) fun i hi hi' => ?_
  rw [List.length_map] at hi'
  have hnumber : (list[i]).number = (plan[i]).number := by
    have := List.getElem_of_eq hnumbers (by rwa [List.length_map])
    rwa [List.getElem_map, List.getElem_map] at this
  obtain ⟨c, hc, hcn, hreply⟩ := h.etags list[i] (List.getElem_mem hi)
  have hpart : c.part = plan[i] :=
    hplan.eq_of_number (hplanned c hc) (List.getElem_mem hi') (hcn.trans hnumber)
  have hetag : (list[i]).etag = tag plan[i] := by
    rw [hreplies c hc, hpart] at hreply
    exact (Except.ok.inj hreply).symm
  rw [List.getElem_map, ← hnumber, ← hetag]

/-- **Completing the session** writes the content. -/
theorem complete_underway {b : Bucket} (h : Underway s file handle acl content sent t)
    (hplan : Consecutive content.length 0 0 plan) (hne : plan ≠ []) (hall : ∀ p ∈ plan, p ∈ sent)
    (hb : s.bucket? handle.bucket = some b) :
    ∃ s', t.1.complete handle
        (plan.map fun p => ⟨p.number, Etag.ofContent (slicePart content p)⟩) = (.ok (), s') ∧
      Store.Wrote s s' handle.bucket handle.key content acl ∧
      s'.uploads = s.uploads.erase handle.uploadId := by
  obtain ⟨u, hu, hbucket, hkey, hacl, hkept⟩ := h.session
  obtain ⟨etag, hassemble⟩ := Store.assemble_plan hplan hne fun p hp => hkept p (hall p hp)
  have hb' : ({ t.1 with uploads := t.1.uploads.erase handle.uploadId } : Store).bucket?
      handle.bucket = some b := (Store.bucket?_congr h.buckets _).trans hb
  have hwrote := Store.wrote_setBucket hb' handle.key (t.1.stamp content etag acl)
  refine ⟨_, ?_, hwrote.congr h.buckets, KeyMap.ext_get? fun id => ?_⟩
  · rw [Store.complete, hu]
    dsimp only
    rw [hassemble]
    dsimp only
    rw [hbucket, hkey, hacl, Store.write_eq_ok hb']
  · refine (KeyMap.get?_erase _ _ id).trans ?_
    rw [KeyMap.get?_erase]
    by_cases hid : id = handle.uploadId
    · rw [if_pos hid, if_pos hid]
    · rw [if_neg hid, if_neg hid, h.others id hid]

/-- Once all parts are sent, the completion of the session succeeds. -/
theorem complete_sent {b : Bucket} (hcontent : source.content? s file = some content)
    (hplan : Consecutive content.length 0 0 plan) (hne : plan ≠ [])
    (hb : s.bucket? handle.bucket = some b) (h : Underway s file handle acl content [] t)
    {calls : List PartCall} {list : List FinishedPart}
    (parts : PartCalls through source handle plan calls) (all : AllSent plan calls list)
    (hsends : Store.handler.Replays t (calls.flatMap (·.events)) t') :
    ∃ s', t'.1.complete handle list = (.ok (), s') ∧ t'.2 = file ∧
      Store.Wrote s s' handle.bucket handle.key content acl ∧
      s'.uploads = s.uploads.erase handle.uploadId := by
  obtain ⟨hreplies, h'⟩ := sends_underway hcontent hplan parts.sends parts.planned (by simp) h
    hsends
  have hall : ∀ p ∈ plan, p ∈ (calls.map (·.part)).reverse ++ [] := by
    intro p hp
    obtain ⟨c, hc, rfl, -⟩ := all.sent p hp
    rw [List.append_nil, List.mem_reverse]
    exact List.mem_map_of_mem hc
  obtain ⟨s', hcomplete, hwrote, huploads⟩ := complete_underway h' hplan hne hall hb
  rw [all.list_eq hplan parts.planned (fun p => Etag.ofContent (slicePart content p)) hreplies]
  exact ⟨s', hcomplete, h'.file_eq, hwrote, huploads⟩

/-- **A session over a store that answers every call** is completed and writes the content. -/
theorem session_wrote {b : Bucket} {key : String} {order : List PlannedPart} {log : List Event}
    {result : Result Transferred} (hcontent : source.content? s file = some content)
    (hplan : Consecutive content.length 0 0 plan) (hne : plan ≠ [])
    (hb : s.bucket? handle.bucket = some b) (h : Underway s file handle acl content [] t)
    (hlog : SessionLog through source handle key content.length plan order log result)
    (hreplay : Store.handler.Replays t log t') :
    result = .ok ⟨content.length, plan.length⟩ ∧ t'.2 = file ∧
      Store.Wrote s t'.1 handle.bucket handle.key content acl ∧
      t'.1.uploads = s.uploads.erase handle.uploadId := by
  cases hlog with
  | completed calls list parts all =>
    obtain ⟨t₁, hsends, -, rfl⟩ := (Handler.replays_append _ _ _ _ _).1 hreplay
    obtain ⟨s', hcomplete, hfile, hwrote, huploads⟩ :=
      complete_sent hcontent hplan hne hb h parts all hsends
    simp only [Store.handler, Store.answer, hcomplete]
    exact ⟨trivial, hfile, hwrote, huploads⟩
  | partFailed calls cause reply parts first =>
    obtain ⟨t₁, hsends, -⟩ := (Handler.replays_append _ _ _ _ _).1 hreplay
    obtain ⟨hreplies, -⟩ := sends_underway hcontent hplan parts.sends parts.planned (by simp) h
      hsends
    obtain ⟨before, c, behind, -, hc, hcause, -⟩ := first
    rw [hreplies c hc] at hcause
    cases hcause
  | completionFailed calls list cause reply parts all =>
    obtain ⟨t₁, hsends, hanswer, -⟩ := (Handler.replays_append _ _ _ _ _).1 hreplay
    obtain ⟨s', hcomplete, -⟩ := complete_sent hcontent hplan hne hb h parts all hsends
    simp only [Store.handler, Store.answer, hcomplete] at hanswer
    cases hanswer

/-- A session that was opened holds nothing yet. -/
theorem initiate_underway {bucket : String} {b : Bucket} (hb : s.bucket? bucket = some b)
    (key : String) (file : LocalFile) (acl : Option Acl) (content : Bytes) :
    ∃ handle s', s.initiate bucket key acl = (.ok handle, s') ∧ handle.bucket = bucket ∧
      handle.key = key ∧ handle.uploadId = Store.uploadId s.opened ∧
      Underway s file handle (acl.getD .byDefault) content [] (s', file) := by
  have hinitiate : s.initiate bucket key acl = (.ok ⟨bucket, key, Store.uploadId s.opened⟩,
      { s with
        uploads := s.uploads.insert (Store.uploadId s.opened)
          { bucket, key, acl := acl.getD .byDefault }
        opened := s.opened + 1 }) := by
    rw [Store.initiate, hb]
  exact ⟨_, _, hinitiate, rfl, rfl, rfl, rfl, rfl,
    ⟨_, KeyMap.get?_insert_self _ _ _, rfl, rfl, rfl, by simp⟩,
    fun id hid => KeyMap.get?_insert_of_ne hid⟩

end Underway

/-! ## Every transfer -/

/-- The number of parts that a transfer of the given size is sent in. -/
def partCount (options : TransferOptions) (size : Nat) : Nat :=
  if options.chunkSize = 0 ∨ size ≤ options.chunkSize then 0 else ceilDiv size options.chunkSize

section Whole

variable {s : Store} {file : LocalFile} {source : Source} {content : Bytes} {target : Path}
  {bucket key : String} {b : Bucket} {options : TransferOptions}

/-- A transfer that is not split writes the content. -/
theorem transfer_whole (through : Access) (schedule : Schedule) (acl : Option Acl)
    (htarget : objectAt target = .ok (bucket, key)) (hb : s.bucket? bucket = some b)
    (hcontent : source.content? s file = some content)
    (hwhole : ¬ options.splits content.length = true) :
    ∃ s', (source.transfer through schedule target acl options).run.run Store.handler (s, file) =
        (.ok ⟨content.length, 0⟩, (s', file)) ∧
      Store.Wrote s s' bucket key content (acl.getD .byDefault) ∧ s'.uploads = s.uploads := by
  obtain ⟨s', hrun, hwrote, huploads⟩ := sendWhole_wrote through key acl hcontent hb
  refine ⟨s', ?_, hwrote, huploads⟩
  rw [Source.transfer_eq source through schedule htarget, Program.run_bind,
    size_run through hcontent]
  dsimp only
  rw [if_neg hwhole, Program.run_bind, hrun]
  rfl

/-- **A transfer in parts writes the content**, in whatever order the parts arrive. -/
theorem transfer_parts (through : Access) (schedule : Schedule) (acl : Option Acl)
    (htarget : objectAt target = .ok (bucket, key)) (hb : s.bucket? bucket = some b)
    (hcontent : source.content? s file = some content)
    (hsplits : options.splits content.length = true) {plan : List PlannedPart}
    (hparts : parts content.length options.chunkSize = .ok plan)
    (hplan : Consecutive content.length 0 0 plan) (hne : plan ≠ []) :
    ∃ s', (source.transfer through schedule target acl options).run.run Store.handler (s, file) =
        (.ok ⟨content.length, plan.length⟩, (s', file)) ∧
      Store.Wrote s s' bucket key content (acl.getD .byDefault) ∧
      s'.uploads = s.uploads.erase (Store.uploadId s.opened) := by
  have hsize := size_run through hcontent
  obtain ⟨log, hevents, hlog⟩ := transfer_log Store.handler (s, file) through schedule source acl
    options htarget (by rw [hsize]) hsplits hparts hplan
  have hsession := Program.replays_behind hevents
  rw [hsize] at hsession
  obtain ⟨handle, s₁, hinitiate, hbucket, hkey, hid, hunderway⟩ :=
    initiate_underway hb key file acl content
  have hopen : Store.handler (.store through (.initiate bucket key acl)) (s, file) =
      (.ok handle, (s₁, file)) := by
    simp only [Store.handler, Store.answer, hinitiate]
  generalize (source.transfer through schedule target acl options).run.run Store.handler
    (s, file) = final at hlog hsession ⊢
  obtain ⟨result, s', file'⟩ := final
  cases hlog with
  | refused e =>
    obtain ⟨hrefused, -⟩ := hsession
    rw [hopen] at hrefused
    cases hrefused
  | opened handle' rest result session =>
    obtain ⟨hopened, hrest⟩ := hsession
    rw [hopen] at hopened hrest
    cases hopened
    obtain ⟨rfl, rfl, hwrote, huploads⟩ := session_wrote hcontent hplan hne (hbucket ▸ hb)
      hunderway session hrest
    rw [hbucket, hkey] at hwrote
    exact ⟨s', rfl, hwrote, hid ▸ huploads⟩

/-- **A transfer writes the content** of its source, if it is whole or the parts can be numbered.
It leaves no session behind. -/
theorem transfer_wrote (through : Access) (schedule : Schedule) (acl : Option Acl)
    (htarget : objectAt target = .ok (bucket, key)) (hb : s.bucket? bucket = some b)
    (hcontent : source.content? s file = some content) (hbound : content.length < 2 ^ 63)
    (hcount : partCount options content.length < numberLimit) :
    ∃ s', (source.transfer through schedule target acl options).run.run Store.handler (s, file) =
        (.ok ⟨content.length, partCount options content.length⟩, (s', file)) ∧
      Store.Wrote s s' bucket key content (acl.getD .byDefault) ∧
      (s'.uploads = s.uploads ∨ s'.uploads = s.uploads.erase (Store.uploadId s.opened)) := by
  by_cases hsplits : options.splits content.length = true
  · obtain ⟨hchunk, hlt⟩ := TransferOptions.splits_iff.1 hsplits
    have hpositive : partCount options content.length =
        ceilDiv content.length options.chunkSize := if_neg (by omega)
    rw [hpositive] at hcount ⊢
    have hparts := parts_eq_ok hchunk hcount (by rw [positionLimit]; omega)
    obtain ⟨hplan, hlength⟩ := consecutive_of_parts hparts
    obtain ⟨s', hrun, hwrote, huploads⟩ := transfer_parts through schedule acl htarget hb hcontent
      hsplits hparts hplan (hplan.ne_nil (by omega))
    exact ⟨s', hlength ▸ hrun, hwrote, .inr huploads⟩
  · have hzero : partCount options content.length = 0 := by
      rw [TransferOptions.splits_iff] at hsplits
      exact if_pos (by omega)
    obtain ⟨s', hrun, hwrote, huploads⟩ :=
      transfer_whole through schedule acl htarget hb hcontent hsplits
    exact ⟨s', hzero ▸ hrun, hwrote, .inl huploads⟩

end Whole

/-- **Transfers are exact to the byte**, whatever they are split into and in whatever order the
parts arrive: the target holds the bytes of the source, and nothing else is changed. -/
theorem transfer_exact (s : Store) (file : LocalFile) (through : Access) (schedule : Schedule)
    (source : Source) {target : Path} (acl : Option Acl) (options : TransferOptions)
    {bucket key : String} {b : Bucket} {content : Bytes}
    (htarget : objectAt target = .ok (bucket, key)) (hb : s.bucket? bucket = some b)
    (hcontent : source.content? s file = some content) (hbound : content.length < 2 ^ 63)
    (hcount : partCount options content.length < numberLimit) :
    ∃ s', (source.transfer through schedule target acl options).run.run Store.handler (s, file) =
        (.ok ⟨content.length, partCount options content.length⟩, (s', file)) ∧
      s'.content? bucket key = some content ∧ s'.acl? bucket key = some (acl.getD .byDefault) ∧
      (∀ bucket' key', ¬ (bucket' = bucket ∧ key' = key) →
        s'.object? bucket' key' = s.object? bucket' key') ∧
      ∀ id u, s'.uploads.get? id = some u → s.uploads.get? id = some u := by
  obtain ⟨s', hrun, hwrote, huploads⟩ :=
    transfer_wrote through schedule acl htarget hb hcontent hbound hcount
  refine ⟨s', hrun, hwrote.content, hwrote.acl, hwrote.others, fun id u hu => ?_⟩
  rcases huploads with heq | heq
  · exact heq ▸ hu
  · rw [heq, KeyMap.get?_erase] at hu
    split at hu
    · cases hu
    · exact hu

/-- Five bytes that are copied in three parts onto the object they are from. -/
theorem transfer_exact_onto_itself :
    let path : Path := ⟨0, true, ["b", "k"]⟩
    let b : Bucket := KeyMap.empty.insert "k" ⟨[1, 2, 3, 4, 5], "", .epoch, .publicRead⟩
    let s : Store := (Store.new 1 .epoch).setBucket "b" b
    objectAt path = .ok ("b", "k") ∧ s.bucket? "b" = some b ∧
      (Source.object path).content? s .absent = some [1, 2, 3, 4, 5] ∧
      partCount ⟨2, 2⟩ 5 = 3 ∧
      ∃ s', ((Source.object path).transfer ⟨0, 0⟩ (fun _ => 1) path none ⟨2, 2⟩).run.run
          Store.handler (s, .absent) = (.ok ⟨5, 3⟩, (s', .absent)) ∧
        s'.content? "b" "k" = some [1, 2, 3, 4, 5] ∧ s'.acl? "b" "k" = some .restricted := by
  intro path b s
  have htarget : objectAt path = .ok ("b", "k") := rfl
  have hb : s.bucket? "b" = some b := by simp [s]
  have hcontent : (Source.object path).content? s .absent = some [1, 2, 3, 4, 5] := rfl
  have hcount : partCount ⟨2, 2⟩ 5 = 3 := by decide
  obtain ⟨s', hrun, hdata, hacl, -⟩ :=
    transfer_exact s .absent ⟨0, 0⟩ (fun _ => 1) (.object path) none ⟨2, 2⟩ htarget hb hcontent
      (by decide) (by decide)
  exact ⟨htarget, hb, hcontent, hcount, s', hrun, hdata, hacl⟩

end BucketFs.Transfer
