import BucketFs.Proofs.Directory.Consumer
import BucketFs.Proofs.Remote.Exchange

/-!
# Listings of a remote service

A service may answer a listing by whatever pages it likes, and by failures in between.

* `Listed`, `listings` — the listings among the exchanges of a run: the page asked for, the reply.
* `ListFields.Malformed` — the replies that a stream refuses; `readPage_check_iff` says that these
  are all.
* `replays_listed`, `replays_unlisted` — either every request of a stream is sent, or none is.
* `listing_not_cut_short` — what a consumer can rely on, whatever the replies are.
-/

namespace BucketFs.Remote

open BucketFs.Text ChildStream

variable {τ : Type}

/-! ## Requests for pages -/

/-- The request for a page. -/
def listRequest (q : ListQuery) : Request :=
  { method := .get
    subject := .bucket q.bucket
    query := [("prefix", q.listed), ("max-keys", toString (min q.maxKeys (countLimit - 1)))]
      ++ optionalQuery "delimiter" q.delimiter ++ optionalQuery "continuation-token" q.token }

theorem requestOf_list (q : ListQuery) : requestOf (.list q) = .ok (some (listRequest q)) := rfl

/-- The token as a service reads it. -/
theorem lookup_token (q : ListQuery) :
    (listRequest q).query.lookup "continuation-token" = q.token := by
  simp only [listRequest, optionalQuery]
  cases q.delimiter <;> cases q.token <;> rfl

/-- A listing as a service sees it: the page that is asked for and the reply. -/
structure Listed where
  query : ListQuery
  reply : Except ServiceFailure ListFields

namespace Listed

/-- The request that was sent. -/
def request (l : Listed) : Request := listRequest l.query

/-- The call of a listing, answered by what is read from the reply. -/
def event (through : Access) (l : Listed) : Event :=
  ⟨.store through (.list l.query), readReply (.list l.query) l.reply⟩

end Listed

/-- The listing of an exchange.  A request that opens a session is none. -/
def Exchange.listed? : Exchange → Option Listed
  | ⟨.list q, signed, reply⟩ => if signed.request = listRequest q then some ⟨q, reply⟩ else none
  | _ => none

/-- The listings among some exchanges. -/
def listings (log : List Exchange) : List Listed := log.filterMap Exchange.listed?

/-! ## Replies -/

/-- The keys and common prefixes of a reply. -/
def ListFields.entries (f : ListFields) : List String :=
  f.contents.filterMap (·.key) ++ f.commonPrefixes.filterMap id

/-- Whether a reply is cut and has no token to go on with, or repeats a key. -/
def ListFields.Malformed (f : ListFields) : Prop :=
  (f.truncated = some true ∧ f.nextToken.getD "" = "") ∨ ¬ (f.contents.filterMap (·.key)).Nodup

theorem readPage_keys (q : ListQuery) (f : ListFields) :
    (readPage q f).keys = f.contents.filterMap (·.key) := by
  rw [ListPage.keys, readPage, List.map_filterMap]
  refine List.filterMap_congr fun o _ => ?_
  cases o.key <;> rfl

theorem readPage_names (q : ListQuery) (f : ListFields) : (readPage q f).names = f.entries := by
  rw [ListPage.names, readPage_keys]
  rfl

theorem readPage_truncated (q : ListQuery) (f : ListFields) :
    (readPage q f).truncated = true ↔ f.truncated = some true := beq_iff_eq

theorem readPage_check_cases (q : ListQuery) (f : ListFields) :
    ((readPage q f).check = .ok () ∧ ¬ f.Malformed) ∨
      ((∃ fault, (readPage q f).check = .error (.internal fault)) ∧ f.Malformed) := by
  unfold ListPage.check ListFields.Malformed
  rw [readPage_keys]
  split
  · rename_i hcut
    rw [Bool.and_eq_true, readPage_truncated, String.isEmpty_iff] at hcut
    exact .inr ⟨⟨_, rfl⟩, .inl hcut⟩
  · rename_i hcut
    rw [Bool.and_eq_true, readPage_truncated, String.isEmpty_iff] at hcut
    split
    · rename_i key hkey
      refine .inr ⟨⟨_, rfl⟩, .inr fun hnodup => ?_⟩
      rw [Listing.firstRepeated?_eq_none_iff.2 ⟨hnodup, by simp⟩] at hkey
      cases hkey
    · rename_i hnone
      refine .inl ⟨rfl, ?_⟩
      rintro (h | h)
      · exact hcut h
      · exact h (Listing.firstRepeated?_eq_none_iff.1 hnone).1

/-- **The replies that are refused** are the malformed ones. -/
theorem readPage_check_iff {q : ListQuery} {f : ListFields} :
    (readPage q f).check = .ok () ↔ ¬ f.Malformed := by
  rcases readPage_check_cases q f with ⟨hpage, hwell⟩ | ⟨⟨fault, hfault⟩, hmalformed⟩
  · exact iff_of_true hpage hwell
  · refine iff_of_false (fun hpage => ?_) (not_not_intro hmalformed)
    rw [hfault] at hpage
    cases hpage

theorem ListFields.Malformed.fault {f : ListFields} (h : f.Malformed) (q : ListQuery) :
    ∃ fault, (readPage q f).check = .error (.internal fault) := by
  rcases readPage_check_cases q f with ⟨-, hwell⟩ | ⟨hfault, -⟩
  · exact absurd h hwell
  · exact hfault

/-! ## Requests that are sent -/

section Sending

variable {client : Client} {transport : Transport τ} {through : Access} {bucket : String}
  {s s' : (List Exchange × τ) × LocalFile} {events : List Event}

/-- What becomes of the request for a page depends on the bucket alone. -/
theorem dispatch_listRequest (client : Client) (q : ListQuery) :
    client.dispatch (listRequest q) =
      match client.accessKey, client.route? (some q.bucket) with
      | some accessKey, some route =>
        if isBlankText q.bucket then .refused
        else if route.session then
          .opens (Client.signOn (Client.sessionRequest q.bucket) route accessKey)
        else .sends (Client.signOn (listRequest q) route accessKey)
      | _, _ => .refused := by
  have hcopy : (listRequest q).isCopy = false := rfl
  have hupload : Client.namesUpload (listRequest q) = true := by
    simp only [Client.namesUpload, listRequest, optionalQuery]
    cases q.delimiter <;> cases q.token <;> rfl
  have hsound : Client.isSound (listRequest q) = !isBlankText q.bucket := by
    rw [Client.isSound, hupload]
    simp [Client.isSubject, listRequest]
  rw [Client.dispatch, hsound, hcopy]
  cases client.accessKey with
  | none => rfl
  | some accessKey =>
    have hbucket : (listRequest q).subject.bucket? = some q.bucket := rfl
    rw [hbucket]
    cases client.route? (some q.bucket) with
    | none => rfl
    | some route =>
      dsimp only
      cases isBlankText q.bucket <;> cases route.session <;> rfl

/-- Whether a client sends no request for a page of a bucket. -/
def Unsent (client : Client) (bucket : String) : Prop :=
  ∀ q : ListQuery, q.bucket = bucket → client.dispatch (listRequest q) = .refused ∨
    ∃ session, client.dispatch (listRequest q) = .opens session ∧
      session.request = Client.sessionRequest bucket

/-- **A client sends all requests** for pages of a bucket, or none. -/
theorem sends_or_unsent (client : Client) (bucket : String) :
    (∀ q : ListQuery, q.bucket = bucket → ∃ signed, client.Sends (.list q) signed) ∨
      Unsent client bucket := by
  cases hkey : client.accessKey with
  | none => exact .inr fun q hq => .inl (by rw [dispatch_listRequest, hkey])
  | some accessKey =>
    cases hroute : client.route? (some bucket) with
    | none => exact .inr fun q hq => .inl (by rw [dispatch_listRequest, hkey, hq, hroute])
    | some route =>
      have hdispatch : ∀ q : ListQuery, q.bucket = bucket → client.dispatch (listRequest q) =
          if isBlankText bucket then .refused
          else if route.session then
            .opens (Client.signOn (Client.sessionRequest bucket) route accessKey)
          else .sends (Client.signOn (listRequest q) route accessKey) := by
        intro q hq
        rw [dispatch_listRequest, hkey, hq, hroute]
      by_cases hblank : isBlankText bucket = true
      · exact .inr fun q hq => .inl (by rw [hdispatch q hq, if_pos hblank])
      · by_cases hsession : route.session = true
        · refine .inr fun q hq =>
            .inr ⟨Client.signOn (Client.sessionRequest bucket) route accessKey, ?_, rfl⟩
          rw [hdispatch q hq, if_neg hblank, if_pos hsession]
        · refine .inl fun q hq => ⟨Client.signOn (listRequest q) route accessKey, rfl, ?_⟩
          refine (hdispatch q hq).trans ?_
          rw [if_neg hblank, if_neg hsession]

/-- Whether a call asks for a page of a bucket. -/
def AsksPage (through : Access) (bucket : String) (x : Event) : Prop :=
  ∃ (q : ListQuery) (reply : Result ListPage), q.bucket = bucket ∧
    x = ⟨.store through (.list q), reply⟩

theorem asksPage_of_asks {stream : ChildStream} (hasks : Asks stream events) :
    ∀ x ∈ events, AsksPage stream.access stream.bucket x := by
  intro x hx
  obtain ⟨g, reply, hsame, rfl⟩ := hasks.lists x hx
  exact ⟨g.request, reply, hsame.bucket, by rw [asked, hsame.access]⟩

/-- **Requests that are sent** leave one listing each, in order. -/
theorem replays_listed
    (hsends : ∀ q : ListQuery, q.bucket = bucket → ∃ signed, client.Sends (.list q) signed)
    (hpages : ∀ x ∈ events, AsksPage through bucket x) :
    ∀ {s : (List Exchange × τ) × LocalFile},
      (client.handler transport.recorded).Replays s events s' →
      ∃ ls, listings s'.1.1 = listings s.1.1 ++ ls ∧ events = ls.map (Listed.event through) := by
  induction events with
  | nil =>
    rintro s rfl
    exact ⟨[], by simp, rfl⟩
  | cons x rest ih =>
    rintro s ⟨hreply, hrest⟩
    obtain ⟨q, reply, hq, rfl⟩ := hpages x List.mem_cons_self
    obtain ⟨signed, hsigned⟩ := hsends q hq
    rw [handler_recorded hsigned] at hreply hrest
    dsimp only at hreply
    subst hreply
    obtain ⟨ls, hlog, rfl⟩ := ih (fun x hx => hpages x (List.mem_cons_of_mem _ hx)) hrest
    have hrequest : signed.request = listRequest q := by
      simpa [requestOf_list] using hsigned.1.symm
    refine ⟨⟨q, (transport (.list q) signed s.1.2).1⟩ :: ls, ?_, rfl⟩
    rw [hlog]
    simp [listings, Exchange.listed?, hrequest]

/-- A request that is not sent fails, and no listing is made. -/
theorem handler_unsent (h : Unsent client bucket) {q : ListQuery} (hq : q.bucket = bucket)
    (s : (List Exchange × τ) × LocalFile) :
    (client.handler transport.recorded (.store through (.list q)) s).1 =
        .error (errorOf (.list q) {}) ∧
      listings (client.handler transport.recorded (.store through (.list q)) s).2.1.1 =
        listings s.1.1 := by
  rcases h q hq with hrefused | ⟨session, hopens, hrequest⟩
  · simp [Client.handler, Client.answer, requestOf_list, hrefused]
  · have hother : session.request ≠ listRequest q := by
      rw [hrequest]
      exact fun heq => by cases congrArg Request.query heq
    simp [Client.handler, Client.answer, requestOf_list, hopens, Transport.recorded, listings,
      Exchange.listed?, hother]

theorem replays_unlisted (h : Unsent client bucket)
    (hpages : ∀ x ∈ events, AsksPage through bucket x) :
    ∀ {s : (List Exchange × τ) × LocalFile},
      (client.handler transport.recorded).Replays s events s' →
      listings s'.1.1 = listings s.1.1 ∧ ∀ x ∈ events, ∃ e, reply? x = some (.error e) := by
  induction events with
  | nil =>
    rintro s rfl
    exact ⟨rfl, fun _ hx => (List.not_mem_nil hx).elim⟩
  | cons x rest ih =>
    rintro s ⟨hreply, hrest⟩
    obtain ⟨q, reply, hq, rfl⟩ := hpages x List.mem_cons_self
    obtain ⟨herror, hlog⟩ := handler_unsent h hq s
    obtain ⟨hlater, herrors⟩ := ih (fun x hx => hpages x (List.mem_cons_of_mem _ hx)) hrest
    refine ⟨hlater.trans hlog, fun x hx => ?_⟩
    rcases List.mem_cons.1 hx with rfl | hx
    · exact ⟨_, congrArg some (hreply.trans herror)⟩
    · exact herrors x hx

end Sending

/-! ## Every consumer -/

/-- What a consumer can rely on at a pull, given the listings of the pulls before and of this
one. -/
structure Unabridged {σ : Type} (stream : ChildStream) (m : Moment σ) (before now : List Listed) :
    Prop where
  /-- The end is reported only behind a reply that is not cut, when all its children were given:
  every entry that has more than separators behind the prefix. -/
  ended : m.answer.IsEnd → ∃ earlier l fields, before ++ now = earlier ++ [l] ∧
    l.reply = .ok fields ∧ fields.truncated ≠ some true ∧ ¬ fields.Malformed ∧
    ∀ e ∈ fields.entries, ∀ rest, e = stream.listed ++ rest →
      (∃ c ∈ rest.toList, c ≠ separator) → .ofBucketKey stream.fs stream.bucket e ∈ m.given
  /-- A malformed reply is an error and adds no child. -/
  refused : ∀ l ∈ now, ∀ fields, l.reply = .ok fields → fields.Malformed →
    (∃ fault, m.answer.failure? = some (.internal fault)) ∧
      m.given = ChildStream.given m.answers ∧ m.next.buffer = m.stream.buffer ∧
      m.next.seen = m.stream.seen
  /-- A failure of the service is an error. -/
  failed : ∀ l ∈ now, ∀ f, l.reply = .error f →
    m.answer.failure? = some (errorOf (.list l.query) f)
  /-- Behind a reply that is cut, the next request carries its token. -/
  resumed : ∀ earlier l l' later fields, before ++ now = earlier ++ l :: l' :: later →
    l.reply = .ok fields → ¬ fields.Malformed → fields.truncated = some true →
      l'.request.query.lookup "continuation-token" = fields.nextToken
  /-- No path is given twice if every entry below the prefix is one name. -/
  distinct : (∀ l ∈ before ++ now, ∀ fields, l.reply = .ok fields → ∀ e ∈ fields.entries,
    ∀ rest, e = stream.listed ++ rest → separator ∉ rest.toList.dropLast) → m.given.Nodup
  /-- Every path is that of an entry below the prefix, which some reply had. -/
  replied : ∀ path ∈ m.given, ∃ l ∈ before ++ now, ∃ fields, l.reply = .ok fields ∧
    ∃ e ∈ fields.entries, hasPrefix stream.listed e = true ∧
      path = .ofBucketKey stream.fs stream.bucket e

section Pull

variable {σ : Type} {m : Moment σ} {rounds : Nat} {stream : ChildStream} {before now : List Listed}

theorem readReply_list_eq_ok {q : ListQuery} {reply : Except ServiceFailure ListFields}
    {page : ListPage} (h : readReply (.list q) reply = .ok page) :
    ∃ fields, reply = .ok fields ∧ page = readPage q fields := by
  cases reply with
  | error f => cases h
  | ok fields => exact ⟨fields, rfl, (Except.ok.inj h).symm⟩

/-- A pull all of whose requests are sent. -/
structure Heard (stream : ChildStream) (m : Moment σ) (before now : List Listed) : Prop where
  asked : m.asked = before.map (Listed.event stream.access)
  requests : m.requests = now.map (Listed.event stream.access)

namespace Heard

variable (hheard : Heard stream m before now)
include hheard

theorem events : m.asked ++ m.requests = (before ++ now).map (Listed.event stream.access) := by
  rw [hheard.asked, hheard.requests, List.map_append]

/-- The names that were read are those that the entries of the replies bring. -/
theorem mem_seen_iff (hnew : stream.Untouched) {n : String} :
    n ∈ (stream.reading (m.asked ++ m.requests)).seen ↔
      ∃ l ∈ before ++ now, ∃ fields, l.reply = .ok fields ∧ ¬ fields.Malformed ∧
        ∃ e ∈ fields.entries, childOf? stream.listed e = some n := by
  rw [mem_seen_reading, hnew.seen, hheard.events]
  constructor
  · rintro (h | ⟨x, hx, page, hreply, hpage, e, he, hname⟩)
    · cases h
    · obtain ⟨l, hl, rfl⟩ := List.mem_map.1 hx
      obtain ⟨fields, hfields, rfl⟩ := readReply_list_eq_ok (Option.some.inj hreply)
      rw [readPage_names] at he
      exact ⟨l, hl, fields, hfields, readPage_check_iff.1 hpage, e, he, hname⟩
  · rintro ⟨l, hl, fields, hfields, hwell, e, he, hname⟩
    refine .inr ⟨l.event stream.access, List.mem_map_of_mem hl, readPage l.query fields, ?_,
      readPage_check_iff.2 hwell, e, by rwa [readPage_names], hname⟩
    rw [Listed.event, hfields]
    rfl

/-- The answer to a listing that is refused is the error of the pull, which adds no child. -/
theorem refused (hm : m.Follows rounds stream) {l : Listed} (hl : l ∈ now) {e : FsError}
    (hverdict : verdict (readReply (.list l.query) l.reply) = .error e) :
    m.answer.failure? = some e ∧ m.next.buffer = m.stream.buffer ∧ m.next.seen = m.stream.seen := by
  have hx : l.event stream.access ∈ m.requests := by
    rw [hheard.requests]
    exact List.mem_map_of_mem hl
  have hfailure := hm.pulled.failure_of_refused hx rfl hverdict
  obtain ⟨hempty, hnext, hseen⟩ := (hm.pulled.looks_of_failure hfailure).adds_nothing rfl
  exact ⟨hfailure, hnext.trans hempty.symm, hseen⟩

theorem ended (hm : m.Follows rounds stream) (hnew : stream.Untouched) (hend : m.answer.IsEnd) :
    ∃ earlier l fields, before ++ now = earlier ++ [l] ∧ l.reply = .ok fields ∧
      fields.truncated ≠ some true ∧ ¬ fields.Malformed ∧
      ∀ e ∈ fields.entries, ∀ rest, e = stream.listed ++ rest →
        (∃ c ∈ rest.toList, c ≠ separator) →
        .ofBucketKey stream.fs stream.bucket e ∈ m.given := by
  obtain ⟨hgiven, hexhausted⟩ := hm.all_given hend
  obtain ⟨events, g, page, hsplit, hpage, hcut⟩ := hm.asks.last_page hnew.unfinished hexhausted
  rw [hheard.events] at hsplit
  obtain ⟨earlier, last, hall, -, hlast⟩ := List.map_eq_append_iff.1 hsplit
  obtain ⟨l, rfl, hl⟩ := List.map_eq_singleton_iff.1 hlast
  obtain ⟨fields, hfields, rfl⟩ := readReply_list_eq_ok (Option.some.inj (congrArg reply? hl))
  have hwell : ¬ fields.Malformed := readPage_check_iff.1 hpage
  refine ⟨earlier, l, fields, hall, hfields, ?_, hwell, fun e he rest heq hchar => ?_⟩
  · rw [← Bool.not_eq_true, readPage_truncated] at hcut
    exact hcut
  · obtain ⟨n, hn⟩ := Option.isSome_iff_exists.1 (childOf?_isSome_iff.2 ⟨rest, heq, hchar⟩)
    have hseen := (hheard.mem_seen_iff hnew).2
      ⟨l, by rw [hall]; simp, fields, hfields, hwell, e, he, hn⟩
    rw [hgiven, (hnew.inStep.reading _).mem_buffer_iff]
    refine ⟨n, hseen, ?_⟩
    rw [(reading_sameListing _ stream).pathOf_eq, ← childPath_eq_pathOf hn, childPath]

theorem resumed (hm : m.Follows rounds stream) {earlier later : List Listed} {l l' : Listed}
    {fields : ListFields} (hsplit : before ++ now = earlier ++ l :: l' :: later)
    (hfields : l.reply = .ok fields) (hwell : ¬ fields.Malformed)
    (hcut : fields.truncated = some true) :
    l'.request.query.lookup "continuation-token" = fields.nextToken := by
  have hasks := hm.asks
  rw [hheard.events, hsplit, List.map_append, List.map_cons, List.map_cons] at hasks
  have hpage : (readPage l.query fields).check = .ok () := readPage_check_iff.2 hwell
  have hreply : reply? (l.event stream.access) = some (.ok (readPage l.query fields)) := by
    rw [Listed.event, hfields]
    rfl
  obtain ⟨g, reply, hnext, htoken⟩ := hasks.token hreply hpage ((readPage_truncated _ _).2 hcut)
  have hquery : l'.query = g.request := by
    injection hnext with hcall
    injection hcall with _ hcall
    injection hcall
  rw [Listed.request, lookup_token, hquery]
  exact htoken

/-- **A pull whose requests are sent** keeps to the replies. -/
theorem unabridged (hm : m.Follows rounds stream) (hnew : stream.Untouched)
    (hlisted : stream.listed = "" ∨ endsInSeparator stream.listed = true) :
    Unabridged stream m before now := by
  have hsame := reading_sameListing (m.asked ++ m.requests) stream
  have hinStep := hnew.inStep.reading (m.asked ++ m.requests)
  have hgiven : m.given <+: (stream.reading (m.asked ++ m.requests)).buffer := by
    rw [← hm.read, refilled]
    exact List.prefix_append _ _
  constructor
  case ended => exact hheard.ended hm hnew
  case resumed => exact fun _ _ _ _ _ => hheard.resumed hm
  case failed =>
    intro l hl f hf
    exact (hheard.refused hm hl (by rw [hf]; rfl)).1
  case refused =>
    intro l hl fields hfields hmalformed
    obtain ⟨fault, hfault⟩ := hmalformed.fault l.query
    have hverdict : verdict (readReply (.list l.query) l.reply) = .error (.internal fault) := by
      rw [hfields]
      exact hfault
    obtain ⟨hfailure, hkept⟩ := hheard.refused hm hl hverdict
    exact ⟨⟨fault, hfailure⟩, Moment.given_of_failure hfailure, hkept⟩
  case distinct =>
    intro hsingle
    refine (hinStep.nodup (by rwa [hsame.listed]) fun n hn => ?_).sublist hgiven.sublist
    obtain ⟨l, hl, fields, hfields, -, e, he, hname⟩ := (hheard.mem_seen_iff hnew).1 hn
    obtain ⟨-, rest, -, rfl, -⟩ := entry_of_childOf? hname
    exact isName_of_childOf? hname (hsingle l hl fields hfields _ he rest rfl)
  case replied =>
    intro path hpath
    obtain ⟨n, hn, rfl⟩ := hinStep.mem_buffer_iff.1 (hgiven.subset hpath)
    obtain ⟨l, hl, fields, hfields, -, e, he, hname⟩ := (hheard.mem_seen_iff hnew).1 hn
    refine ⟨l, hl, fields, hfields, e, he, ?_, ?_⟩
    · obtain ⟨-, rest, -, rfl, -⟩ := entry_of_childOf? hname
      exact hasPrefix_append _ _
    · rw [hsame.pathOf_eq, ← childPath_eq_pathOf hname, childPath]

end Heard

/-- **A pull whose requests are not sent** gives nothing and does not report the end. -/
theorem unabridged_of_unsent (hm : m.Follows rounds stream) (hnew : stream.Untouched)
    (herrors : ∀ x ∈ m.asked ++ m.requests, ∃ e, reply? x = some (.error e)) :
    Unabridged stream m [] [] := by
  have hread := reading_of_errors hnew.token herrors
  have hgiven : m.given = [] := by
    have hbuffer := congrArg buffer (hm.read.trans hread)
    rw [hnew.buffer] at hbuffer
    exact (List.append_eq_nil_iff.1 hbuffer).1
  constructor
  case ended =>
    intro hend
    have hexhausted := (hm.all_given hend).2
    rw [hread, hnew.unfinished] at hexhausted
    cases hexhausted
  case refused => exact fun l hl => (List.not_mem_nil hl).elim
  case failed => exact fun l hl => (List.not_mem_nil hl).elim
  case resumed => exact fun earlier l l' later fields hsplit => by simp at hsplit
  case distinct =>
    intro _
    rw [hgiven]
    exact .nil
  case replied =>
    intro path hpath
    rw [hgiven] at hpath
    exact (List.not_mem_nil hpath).elim

end Pull

/-- **A listing is never cut short without notice**, whatever a service replies and whatever a
consumer pulls, also behind errors. -/
theorem listing_not_cut_short (client : Client) (transport : Transport τ) {fs : FileSystem}
    {bucket listed : String} {stream : ChildStream}
    (hnew : ChildStream.new fs bucket listed = .ok stream) (rounds : Nat) (ps : List Pull)
    (p : Pull) (t : τ) (file : LocalFile) :
    let m := stream.moment (client.handler transport.recorded) rounds ps p (([], t), file)
    ∃ now, listings m.final.1.1 = listings m.state.1.1 ++ now ∧
      Unabridged stream m (listings m.state.1.1) now := by
  intro m
  obtain ⟨huntouched, -, -, hlisted⟩ := new_untouched hnew
  have hm : m.Follows rounds stream := moment_follows _ rounds stream ps p _
  obtain ⟨hbefore, hnow⟩ := moment_replays (client.handler transport.recorded) rounds stream ps p
    (([], t), file)
  have hpages := asksPage_of_asks hm.asks
  have hasked : ∀ x ∈ m.asked, AsksPage stream.access stream.bucket x := fun x hx =>
    hpages x (List.mem_append_left _ hx)
  have hrequests : ∀ x ∈ m.requests, AsksPage stream.access stream.bucket x := fun x hx =>
    hpages x (List.mem_append_right _ hx)
  rcases sends_or_unsent client stream.bucket with hsends | hunsent
  · obtain ⟨before, hlog, hbeforeEvents⟩ := replays_listed hsends hasked hbefore
    obtain ⟨now, hlater, hnowEvents⟩ := replays_listed hsends hrequests hnow
    obtain rfl : listings m.state.1.1 = before := hlog
    exact ⟨now, hlater, Heard.unabridged ⟨hbeforeEvents, hnowEvents⟩ hm huntouched hlisted⟩
  · obtain ⟨hlog, herrors⟩ := replays_unlisted hunsent hasked hbefore
    obtain ⟨hlater, hmore⟩ := replays_unlisted hunsent hrequests hnow
    replace hlog : listings m.state.1.1 = [] := hlog
    refine ⟨[], by rw [hlater, List.append_nil], ?_⟩
    rw [hlog]
    exact unabridged_of_unsent hm huntouched fun x hx =>
      (List.mem_append.1 hx).elim (herrors x) (hmore x)

/-- A service that answers by a cut page without children, by a failure, by a page that repeats a
key, and by a last page with a foreign key. -/
theorem listing_not_cut_short_retried :
    let client : Client := ⟨⟨"us-east-1", some "http://localhost:4566", true⟩, some "test"⟩
    let replies : List (Except ServiceFailure ListFields) :=
      [.ok { nextToken := some "t", truncated := some true }, .error { status := some 503 },
        .ok { contents := [{ key := some "d/x" }, { key := some "d/x" }] },
        .ok { contents := [{ key := some "d/x" }, { key := some "e" }],
              commonPrefixes := [some "d/y/"] }]
    let transport : Transport (List (Except ServiceFailure ListFields)) := fun c _ script =>
      match c, script with
      | .list _, reply :: rest => (reply, rest)
      | _, rest => (.error {}, rest)
    let fs : FileSystem := ⟨0, ⟨"", ""⟩, {}, ⟨0, 0⟩, true⟩
    let stream : ChildStream := ⟨0, ⟨0, 0⟩, "b", "d/", 1000, [], [], none, false⟩
    ChildStream.new fs "b" "d/" = .ok stream ∧
      (client.route? (some "b")).map (·.session) = some false ∧
      let m := stream.moment (client.handler transport.recorded) 4 [.next, .hasMore, .next, .next]
        .next (([], replies), .absent)
      ∃ now, listings m.final.1.1 = listings m.state.1.1 ++ now ∧
        Unabridged stream m (listings m.state.1.1) now := by
  intro client replies transport fs stream
  have hnew : ChildStream.new fs "b" "d/" = .ok stream := rfl
  have hroute : (client.route? (some "b")).map (·.session) = some false := by decide +kernel
  exact ⟨hnew, hroute, listing_not_cut_short client transport hnew 4 [.next, .hasMore, .next, .next]
    .next replies .absent⟩

end BucketFs.Remote
