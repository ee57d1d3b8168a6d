import BucketFs.Proofs.Directory.Children
import BucketFs.Proofs.Directory.Consumer
import BucketFs.Proofs.Store.Handlers

/-!
# Directory streams over a store that fails at times

A request that fails spends the token, so that the next one starts the listing over.  What was read
before comes again then, but no name is taken twice.

* `AnsweredBy` — a request that was answered by a store, or failed.
* `ChildStream.Before`, `ChildStream.Met` — where a stream stands in the listing of a bucket, and
  how many of its entries it has met.
* `ChildStream.Met.receive` — a page met again adds nothing; `ChildStream.Met.reading` — so whatever
  fails, a stream has read an initial part of the listing.
* `retries_lose_nothing` — every consumer gets what a stream yields that never fails.
-/

namespace BucketFs

open BucketFs.Text BucketFs.Listing

variable {σ : Type} {h : Handler σ} {reaches : Access → Prop} {view : σ → Store}

/-! ## Stores that fail at times -/

/-- Whether a request for a page was answered by a store, or failed. -/
def AnsweredBy (store : Store) : Event → Prop
  | ⟨.store _ (.list q), reply⟩ => reply = store.list q ∨ ∃ e, reply = .error e
  | _ => True

/-- Several stores whose next calls fail as listed; behind the list no call fails. -/
def Store.flaky : Handler (List (Option FsError) × (StoreId → Store) × LocalFile)
  | .store through c, (plan, s) =>
    let answer := Store.several (fun _ _ => plan.head?.join) (.store through c) s
    (answer.1, (plan.tail, answer.2))
  | .file c, (plan, s) => (s.2.answer c, (plan, s))

theorem Store.flaky_serves (i : StoreId) :
    Store.flaky.Serves (fun through => through.store = i) fun t => t.2.1 i :=
  ⟨fun through c t => (Store.several_serves _ i).reached through c t.2,
    fun through c t => (Store.several_serves _ i).apart through c t.2, fun _ _ => rfl⟩

theorem Store.list_missing (store : Store) {q : ListQuery}
    (hmissing : store.bucket? q.bucket = none) : ∃ e, store.list q = .error e := by
  rw [list]
  cases q.token with
  | none => exact ⟨_, by rw [hmissing]; rfl⟩
  | some token =>
    cases htoken : Token.decode token with
    | error e => exact ⟨e, by simp [htoken]; rfl⟩
    | ok marker => exact ⟨_, by simp [htoken, hmissing]; rfl⟩

namespace ChildStream

variable {store : Store} {b : Bucket} {stream s s' g : ChildStream} {events : List Event}
  {rounds : Nat} {p : Pull}

theorem Asks.answeredBy (hasks : Asks s events) (hserves : h.Serves reaches view)
    (hreach : reaches s.access) :
    ∀ {t t' : σ}, h.Replays t events t' →
      (∀ x ∈ events, AnsweredBy (view t) x) ∧ view t' = view t := by
  induction hasks with
  | nil =>
    rintro t t' rfl
    exact ⟨fun _ hx => (List.not_mem_nil hx).elim, rfl⟩
  | @cons s reply events _ _ ih =>
    rintro t t' ⟨hreply, hrest⟩
    obtain ⟨hview, hanswered⟩ := hserves.asked hreach (c := .list s.request) (s := t) rfl
    obtain ⟨hall, hview'⟩ := ih ((receive_sameListing s reply).access ▸ hreach) hrest
    refine ⟨fun x hx => ?_, hview'.trans hview⟩
    rcases List.mem_cons.1 hx with rfl | hx
    · change reply = _ at hreply
      rw [hreply]
      exact hanswered
    · rw [← hview]
      exact hall x hx

/-! ## Places in a listing -/

/-- All entries that a stream over a bucket lists. -/
abbrev listing (s : ChildStream) (b : Bucket) : List Entry := entries b s.listed (some slash)

/-- Whether the next page of a stream starts behind the first `count` entries. -/
structure Before (s : ChildStream) (store : Store) (b : Bucket) (count : Nat) : Prop where
  within : count ≤ (s.listing b).length
  place : ∃ marker, s.At store b marker ∧
    entriesAfter b s.listed (effective (some slash)) marker = (s.listing b).drop count

/-- The stream that has met some entries, one after the other. -/
def met (s : ChildStream) (es : List Entry) (token : Option String) (ended : Bool) : ChildStream :=
  { s with
    seen := seenAfter (childOf? s.listed) s.seen (es.map Entry.name)
    buffer := s.buffer ++ s.added es
    token := token
    exhausted := ended }

/-- A stretch of a list that starts within its first `count` elements: what it repeats, and what
stands behind these elements. -/
theorem exists_repeated {α : Type} (all : List α) {count start : Nat} (hstart : start ≤ count)
    (limit : Nat) :
    ∃ again new, (all.drop start).take limit = again ++ new ∧ (∀ a ∈ again, a ∈ all.take count) ∧
      all.take count ++ new = all.take (max count (start + limit)) := by
  refine ⟨((all.drop start).take limit).take (count - start),
    ((all.drop start).take limit).drop (count - start), (List.take_append_drop _ _).symm, ?_, ?_⟩
  · intro a ha
    rw [List.take_take, List.take_drop] at ha
    refine (List.take_subset_take_left all ?_) (List.mem_of_mem_drop ha)
    omega
  · rw [List.drop_take, List.drop_drop, Nat.add_sub_cancel' hstart, ← List.take_add]
    congr 1
    omega

/-- **Entries met again** add nothing. -/
theorem met_behind (s : ChildStream) (all : List Entry) {count start : Nat} (hstart : start ≤ count)
    (limit : Nat) (token : Option String) (ended : Bool) (page : ListPage) :
    (s.met (all.take count) token ended).behind ((all.drop start).take limit) page =
      s.met (all.take (max count (start + limit))) page.nextToken (!page.truncated) := by
  obtain ⟨again, new, hsplit, hagain, hall⟩ := exists_repeated all hstart limit
  have hfresh : fresh (childOf? s.listed) s.seen
      ((all.take count).map Entry.name ++ ((all.drop start).take limit).map Entry.name) =
      fresh (childOf? s.listed) s.seen ((all.take (max count (start + limit))).map Entry.name) := by
    rw [hsplit, ← hall, List.map_append, List.map_append]
    refine fresh_again fun e he => ?_
    obtain ⟨a, ha, rfl⟩ := List.mem_map.1 he
    exact List.mem_map_of_mem (hagain a ha)
  have hseen : seenAfter (childOf? s.listed)
      (seenAfter (childOf? s.listed) s.seen ((all.take count).map Entry.name))
      (((all.drop start).take limit).map Entry.name) =
      seenAfter (childOf? s.listed) s.seen
        ((all.take (max count (start + limit))).map Entry.name) := by
    rw [← seenAfter_append, seenAfter, hfresh, seenAfter]
  have hadded : s.added (all.take count) ++
      (s.met (all.take count) token ended).added ((all.drop start).take limit) =
      s.added (all.take (max count (start + limit))) := by
    rw [added, added, added, ← hfresh, fresh_append, List.map_append]
    rfl
  rw [behind, met, met]
  dsimp only
  rw [List.append_assoc, ← hadded, ← hseen]
  rfl

/-- **A page that is answered** shows the entries at the place of the stream, which then stands
behind them or at its end. -/
theorem Before.fetch {start : Nat} (hplace : g.Before store b start) (hkeys : "" ∉ b.keys) :
    ∃ limit page, 0 < limit ∧
      g.receive (store.list g.request) =
        (.ok (), g.behind (((g.listing b).drop start).take limit) page) ∧
      (page.truncated = true →
        (g.behind (((g.listing b).drop start).take limit) page).Before store b (start + limit)) ∧
      (page.truncated = false → (g.listing b).length ≤ start + limit) := by
  obtain ⟨-, marker, hat, hentries⟩ := hplace
  have hlimit := store.effectiveLimit_pos g.maxKeys
  have hreceive := receive_page hat rfl (page_check_of_keys hkeys hlimit hat.isMarker)
  have hlength : (entriesAfter b g.listed (effective (some slash)) marker).length =
      (g.listing b).length - start := by
    rw [hentries, List.length_drop]
  rw [shown, hentries] at hreceive
  refine ⟨_, _, hlimit, hreceive, fun htruncated => ?_, fun hlast => ?_⟩
  · have hcut := page_truncated_iff.1 htruncated
    obtain ⟨m, hnext, hdrop⟩ := hat.behind hlimit htruncated
    rw [shown, hentries] at hnext
    rw [hentries, List.drop_drop] at hdrop
    exact ⟨by change start + _ ≤ (g.listing b).length; omega, some m, hnext, hdrop⟩
  · rw [← Bool.not_eq_true, page_truncated_iff] at hlast
    omega

/-- Without a token a listing starts over. -/
theorem Before.restart {start : Nat} (hplace : g.Before store b start) :
    ({ g with token := none } : ChildStream).Before store b 0 := by
  obtain ⟨-, marker, hat, -⟩ := hplace
  exact ⟨Nat.zero_le _, none, ⟨hat.bucket, isMarker_none, rfl, hat.unfinished⟩, rfl⟩

/-! ## What is met -/

/-- Whether a stream that yields nothing has met the first `count` entries of a bucket, and stands
at one of them or at their end. -/
structure Met (store : Store) (b : Bucket) (stream g : ChildStream) (count : Nat) : Prop where
  entries : ∃ token ended, g = stream.met ((stream.listing b).take count) token ended
  place : g.exhausted = false → ∃ start ≤ count, g.Before store b start
  whole : g.exhausted = true → (stream.listing b).length ≤ count

/-- **Whatever an answer is**, no entry is lost and none is taken twice. -/
theorem Met.receive {count : Nat} (hmet : Met store b stream g count) (hkeys : "" ∉ b.keys)
    (hunfinished : g.exhausted = false) {reply : Result ListPage}
    (hanswered : AnsweredBy store (g.asked reply)) :
    ∃ count', Met store b stream (g.receive reply).2 count' := by
  obtain ⟨token, ended, hg⟩ := hmet.entries
  obtain ⟨start, hstart, hplace⟩ := hmet.place hunfinished
  have hlisting : g.listing b = stream.listing b := by
    rw [hg]
    rfl
  rcases hanswered with rfl | ⟨e, rfl⟩
  · obtain ⟨limit, page, -, hreceive, hcut, hlast⟩ := hplace.fetch hkeys
    rw [hreceive]
    rw [hlisting] at hcut hlast ⊢
    have hbehind : g.behind (((stream.listing b).drop start).take limit) page =
        stream.met ((stream.listing b).take (max count (start + limit))) page.nextToken
          (!page.truncated) := by
      rw [hg]
      exact met_behind stream _ hstart limit token ended page
    refine ⟨max count (start + limit), ⟨_, _, hbehind⟩, fun hmore => ?_, fun hend => ?_⟩
    · replace hmore : (!page.truncated) = false := hmore
      exact ⟨start + limit, Nat.le_max_right _ _, hcut (by simpa using hmore)⟩
    · replace hend : (!page.truncated) = true := hend
      have := hlast (by simpa using hend)
      omega
  · refine ⟨count, ⟨none, ended, ?_⟩, fun _ => ⟨0, Nat.zero_le _, hplace.restart⟩, hmet.whole⟩
    rw [hg]
    rfl

theorem Met.reading {count : Nat} (hmet : Met store b stream g count) (hkeys : "" ∉ b.keys)
    (hasks : Asks g events) (hanswered : ∀ x ∈ events, AnsweredBy store x) :
    ∃ count', Met store b stream (g.reading events) count' := by
  induction hasks generalizing count with
  | nil => exact ⟨count, hmet⟩
  | cons unfinished _ ih =>
    obtain ⟨count', hnext⟩ := hmet.receive hkeys unfinished (hanswered _ List.mem_cons_self)
    exact ih hnext fun x hx => hanswered x (List.mem_cons_of_mem _ hx)

/-- What was read is an initial part of all there is. -/
theorem Met.buffer_isPrefix {count : Nat} (hmet : Met store b stream g count) :
    g.buffer <+: stream.buffer ++ stream.added (stream.listing b) := by
  obtain ⟨token, ended, rfl⟩ := hmet.entries
  rw [← List.take_append_drop count (stream.listing b), added_append _ _ _ { listed := "" },
    ← List.append_assoc, List.take_append_drop]
  exact List.prefix_append _ _

theorem Met.buffer_eq {count : Nat} (hmet : Met store b stream g count)
    (hend : g.exhausted = true) : g.buffer = stream.buffer ++ stream.added (stream.listing b) := by
  have hall := hmet.whole hend
  obtain ⟨token, ended, rfl⟩ := hmet.entries
  rw [met, List.take_of_length_le hall]

/-! ## Looks that fail -/

/-- **A look that fails** does so at a request: no listing has more pages than a pull may ask
for. -/
theorem Looks.failed_request {answer : Result Bool} {e : FsError}
    (hlooks : Looks rounds s events answer s') (hfailed : answer = .error e) (hkeys : "" ∉ b.keys)
    (hanswered : ∀ x ∈ events, AnsweredBy store x)
    (hplace : s.exhausted = false →
      ∃ start, s.Before store b start ∧ (s.listing b).length < start + rounds) :
    ∃ x ∈ events, reply? x = some (.error e) := by
  induction hlooks with
  | ready | ended => cases hfailed
  | stopped _ unfinished =>
    obtain ⟨start, hbefore, hlength⟩ := hplace unfinished
    exact absurd hbefore.within (by omega)
  | @failed _ s reply _ _ unfinished refused =>
    cases hfailed
    obtain ⟨start, hbefore, -⟩ := hplace unfinished
    rcases hanswered _ List.mem_cons_self with rfl | ⟨e', rfl⟩
    · -- a page of the store passes its check
      obtain ⟨limit, page, -, hreceive, -⟩ := hbefore.fetch hkeys
      rw [← receive_fst s, hreceive] at refused
      cases refused
    · cases refused
      exact ⟨_, List.mem_cons_self, rfl⟩
  | @fetched rounds s _ reply events _ _ unfinished taken rest ih =>
    obtain ⟨start, hbefore, hlength⟩ := hplace unfinished
    rcases hanswered _ List.mem_cons_self with rfl | ⟨e', rfl⟩
    · obtain ⟨limit, page, hlimit, hreceive, hcut, -⟩ := hbefore.fetch hkeys
      have hnext : (s.receive (store.list s.request)).2.exhausted = false →
          ∃ start, (s.receive (store.list s.request)).2.Before store b start ∧
            ((s.receive (store.list s.request)).2.listing b).length < start + rounds := by
        rw [hreceive]
        intro hmore
        replace hmore : (!page.truncated) = false := hmore
        refine ⟨start + limit, hcut (by simpa using hmore), ?_⟩
        change (s.listing b).length < start + limit + rounds
        omega
      obtain ⟨x, hx, hreply⟩ :=
        ih hfailed (fun x hx => hanswered x (List.mem_cons_of_mem _ hx)) hnext
      exact ⟨x, List.mem_cons_of_mem _ hx, hreply⟩
    · cases taken

/-- Without its bucket a look fails at its first request. -/
theorem Looks.failed_unlisted {answer : Result Bool} {e : FsError}
    (hlooks : Looks (rounds + 1) s events answer s') (hfailed : answer = .error e)
    (herrors : ∀ x ∈ events, ∃ e, reply? x = some (.error e)) :
    ∃ x ∈ events, reply? x = some (.error e) := by
  cases hlooks with
  | ready | ended => cases hfailed
  | failed _ _ refused =>
    cases hfailed
    obtain ⟨e', he'⟩ := herrors _ List.mem_cons_self
    cases he'
    cases refused
    exact ⟨_, List.mem_cons_self, rfl⟩
  | fetched _ _ taken _ =>
    obtain ⟨e', he'⟩ := herrors _ List.mem_cons_self
    cases he'
    cases taken

/-! ## Missing buckets -/

/-- Without its bucket no request of a stream succeeds. -/
theorem Asks.errors (hasks : Asks s events) (hmissing : store.bucket? s.bucket = none)
    (hanswered : ∀ x ∈ events, AnsweredBy store x) :
    ∀ x ∈ events, ∃ e, reply? x = some (.error e) := by
  intro x hx
  obtain ⟨g, reply, hsame, rfl⟩ := hasks.lists x hx
  rcases hanswered _ hx with rfl | ⟨e, rfl⟩
  · rw [← hsame.bucket] at hmissing
    obtain ⟨e, he⟩ := store.list_missing (q := g.request) hmissing
    exact ⟨e, congrArg some he⟩
  · exact ⟨e, rfl⟩

/-! ## Every consumer -/

/-- What a consumer can rely on at a pull, where `whole` is what a stream yields that never fails
and `ending` the failure in which that one ends. -/
structure LosesNothing (stream : ChildStream) (whole : List Path) (ending : Option FsError)
    (m : Moment σ) : Prop where
  /-- Nothing is skipped and nothing comes twice. -/
  inOrder : m.given <+: whole
  /-- The end is reported only when everything was given. -/
  complete : m.answer.IsEnd → m.given = whole ∧ ending = none
  /-- Asking whether there is more takes nothing away. -/
  peeks : m.pull = .hasMore →
    m.given = ChildStream.given m.answers ∧ m.stream.buffer <+: m.next.buffer
  /-- A page is asked for only when all children that were read have been given. -/
  prompt : ∀ earlier x later, m.requests = earlier ++ x :: later →
    (stream.reading (m.asked ++ earlier)).buffer = ChildStream.given m.answers
  /-- An error is that of a request of this pull. -/
  failed : ∀ e, m.answer.failure? = some e → ∃ x ∈ m.requests, reply? x = some (.error e)

section

variable {m : Moment σ}

theorem losesNothing_of_bucket (hm : m.Follows rounds stream) (hnew : stream.Untouched)
    (hbucket : store.bucket? stream.bucket = some b) (hkeys : "" ∉ b.keys)
    (hrounds : b.size < rounds) (hanswered : ∀ x ∈ m.asked ++ m.requests, AnsweredBy store x) :
    LosesNothing stream (stream.added (stream.listing b)) none m := by
  have hlength : (stream.listing b).length < rounds :=
    Nat.lt_of_le_of_lt (length_entriesAfter_le b none) hrounds
  have hstart : Met store b stream stream 0 := by
    refine ⟨⟨stream.token, stream.exhausted, by simp [met, seenAfter, fresh, added]⟩, fun _ => ?_,
      fun hend => ?_⟩
    · exact ⟨0, Nat.le_refl 0, Nat.zero_le _, none,
        ⟨hbucket, isMarker_none, hnew.token, hnew.unfinished⟩, rfl⟩
    · rw [hnew.unfinished] at hend
      cases hend
  obtain ⟨count, hmet⟩ := hstart.reading hkeys hm.asks hanswered
  constructor
  case inOrder =>
    have hread := hmet.buffer_isPrefix
    rw [hnew.buffer, List.nil_append, ← hm.read, refilled] at hread
    exact (List.prefix_append _ _).trans hread
  case complete =>
    intro hend
    obtain ⟨hgiven, hexhausted⟩ := hm.all_given hend
    rw [hgiven, hmet.buffer_eq hexhausted, hnew.buffer]
    exact ⟨rfl, rfl⟩
  case peeks => exact hm.peeks
  case prompt => exact fun earlier x later => hm.prompt
  case failed =>
    intro e he
    refine (hm.pulled.looks_of_failure he).failed_request (b := b) rfl hkeys
      (fun x hx => hanswered x (List.mem_append_right _ hx)) fun hunfinished => ?_
    -- where the stream stands does not depend on what it has buffered
    obtain ⟨count, hbefore⟩ := hstart.reading hkeys hm.course.asks fun x hx =>
      hanswered x (List.mem_append_left _ hx)
    rw [← hm.course.read] at hbefore
    obtain ⟨start, -, hwithin, marker, hat, hentries⟩ := hbefore.place hunfinished
    have hlisting : m.stream.listing b = stream.listing b := by
      obtain ⟨token, ended, heq⟩ := hbefore.entries
      exact congrArg (fun s => s.listing b) heq
    refine ⟨start, ⟨hwithin, marker, ⟨hat.bucket, hat.isMarker, hat.token, hat.unfinished⟩,
      hentries⟩, ?_⟩
    rw [hlisting]
    omega

theorem losesNothing_of_missing {whole : List Path} {ending : Option FsError}
    (hm : m.Follows (rounds + 1) stream) (hnew : stream.Untouched)
    (hmissing : store.bucket? stream.bucket = none)
    (hanswered : ∀ x ∈ m.asked ++ m.requests, AnsweredBy store x) :
    LosesNothing stream whole ending m := by
  have herrors := hm.asks.errors hmissing hanswered
  have hread := hm.read
  rw [reading_of_errors hnew.token herrors] at hread
  constructor
  case inOrder =>
    have hbuffer := congrArg buffer hread
    rw [hnew.buffer] at hbuffer
    rw [(List.append_eq_nil_iff.1 hbuffer).1]
    exact List.nil_prefix
  case complete =>
    intro hend
    have hexhausted := (hm.all_given hend).2
    rw [reading_of_errors hnew.token herrors, hnew.unfinished] at hexhausted
    cases hexhausted
  case peeks => exact hm.peeks
  case prompt => exact fun earlier x later => hm.prompt
  case failed =>
    exact fun e he => (hm.pulled.looks_of_failure he).failed_unlisted rfl fun x hx =>
      herrors x (List.mem_append_right _ hx)

end

/-- **A directory stream survives failures**: over an unchanged store of which any requests may
fail, every consumer, whatever it pulls and however often it goes on after an error, is given what
a stream yields that never fails. -/
theorem retries_lose_nothing (hserves : h.Serves reaches view) {fs : FileSystem}
    (hreach : reaches fs.access) {bucket listed : String} {stream : ChildStream}
    (hnew : ChildStream.new fs bucket listed = .ok stream) (t : σ)
    (hkeys : ∀ b, (view t).bucket? bucket = some b → "" ∉ b.keys) (rounds : Nat)
    (hrounds : (((view t).bucket? bucket).elim 0 fun b => b.size) < rounds) :
    ∃ whole ending,
      (∀ file, ((stream.drain rounds).run Store.handler (view t, file)).1 = (whole, ending)) ∧
      ∀ ps p, LosesNothing stream whole ending (stream.moment h rounds ps p t) := by
  obtain ⟨huntouched, haccess, hbucket, -⟩ := new_untouched hnew
  have hanswered : ∀ ps p, let m := stream.moment h rounds ps p t;
      ∀ x ∈ m.asked ++ m.requests, AnsweredBy (view t) x := by
    intro ps p m
    obtain ⟨hbefore, hnow⟩ := moment_replays h rounds stream ps p t
    exact ((moment_follows h rounds stream ps p t).asks.answeredBy hserves (haccess ▸ hreach)
      ((h.replays_append _ _ _ _).2 ⟨_, hbefore, hnow⟩)).1
  subst hbucket
  cases hb : (view t).bucket? stream.bucket with
  | some b =>
    rw [hb, Option.elim_some] at hrounds
    have hat : stream.At (view t) b none :=
      ⟨hb, isMarker_none, huntouched.token, huntouched.unfinished⟩
    refine ⟨stream.added (stream.listing b), none, fun file => ?_, fun ps p => ?_⟩
    · rw [drain_run file (hkeys b hb) rounds none stream hat
        (Nat.lt_of_le_of_lt (length_entriesAfter_le b none) hrounds), huntouched.buffer]
      rfl
    · exact losesNothing_of_bucket (moment_follows h rounds stream ps p t) huntouched hb
        (hkeys b hb) hrounds (hanswered ps p)
  | none =>
    rw [hb, Option.elim_none] at hrounds
    obtain ⟨rounds, rfl⟩ := Nat.exists_eq_add_one_of_ne_zero (Nat.ne_of_gt hrounds)
    obtain ⟨e, he⟩ := (view t).list_missing (q := stream.request) hb
    refine ⟨[], some e, fun file => ?_, fun ps p => ?_⟩
    · rw [drain, if_neg (by simp [huntouched.unfinished])]
      simp only [Program.run_call, Store.handler, Store.answer, he, receive, Program.run_done,
        huntouched.buffer]
    · exact losesNothing_of_missing (moment_follows h _ stream ps p t) huntouched hb
        (hanswered ps p)

/-- A bucket with a file, a name between it and the directory of its name, and that directory, read
one entry at a time.  The second and the fourth request fail, so the listing starts over twice. -/
theorem retries_lose_nothing_paged :
    let o : ObjectRecord := ⟨[], "", .epoch, .byDefault⟩
    let b : Bucket := ((KeyMap.empty.insert "a" o).insert "a-b" o).insert "a/x" o
    let store : Store := (Store.new 1 .epoch).setBucket "b" b
    let fs : FileSystem := ⟨0, ⟨"", ""⟩, {}, ⟨0, 0⟩, true⟩
    let stream : ChildStream := ⟨0, ⟨0, 0⟩, "b", "", 1000, [], [], none, false⟩
    let plan := [none, some (FaultyStore.failure "list"), none, some (FaultyStore.failure "list")]
    ChildStream.new fs "b" "" = .ok stream ∧ "" ∉ b.keys ∧ b.size < 4 ∧
      ∃ whole ending,
        ((stream.drain 4).run Store.handler (store, .absent)).1 = (whole, ending) ∧
        LosesNothing stream whole ending (stream.moment Store.flaky 4
          [.next, .hasMore, .next, .hasMore, .next, .next] .next
          (plan, fun _ => store, .absent)) := by
  intro o b store fs stream plan
  have hb : store.bucket? "b" = some b := by simp [store]
  have hnew : ChildStream.new fs "b" "" = .ok stream := rfl
  have hkeys : ∀ b', store.bucket? "b" = some b' → "" ∉ b'.keys := by
    intro b' hb'
    rw [hb] at hb'
    cases hb'
    decide
  have hrounds : ((store.bucket? "b").elim 0 fun b => b.size) < 4 := by
    rw [hb]
    decide
  obtain ⟨whole, ending, hwhole, hall⟩ := retries_lose_nothing (Store.flaky_serves 0) rfl hnew
    (plan, fun _ => store, .absent) hkeys 4 hrounds
  exact ⟨hnew, hkeys b hb, by decide, whole, ending, hwhole .absent, hall _ _⟩

end ChildStream

end BucketFs
