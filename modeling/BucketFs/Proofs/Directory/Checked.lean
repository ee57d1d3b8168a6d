import BucketFs.Proofs.Directory.Consumer
import BucketFs.Proofs.Listing.Checked

/-!
# Which pages a directory stream refuses

A stream asks with no token or with that of a page, so every request that it makes can be read, and
the store answers it by a page that passes its check unless it is stuck.  The store may be changed
between the requests.

* `ChildStream.Asks.answered` — the requests of a stream, each with the store that answered it.
* `ChildStream.Pulled.failure_cases` — the three ways in which a pull fails.
* `ChildStream.pages_checked` — which pages of a store in memory are refused.
-/

namespace BucketFs

open BucketFs.Text BucketFs.Listing

variable {σ : Type} {h : Handler σ} {view : σ → Store}

/-- A handler whose requests for pages are answered by a store in memory, whatever becomes of that
store. -/
def Handler.ListsFrom (h : Handler σ) (view : σ → Store) : Prop :=
  ∀ (through : Access) (q : ListQuery) (t : σ),
    (h (.store through (.list q)) t).1 = (view t).list q

theorem Store.handler_listsFrom : Store.handler.ListsFrom Prod.fst := fun _ _ _ => rfl

namespace ChildStream

variable {s s' g stream : ChildStream} {events : List Event} {rounds : Nat} {p : Pull} {t t' : σ}

/-- Whether the first page of a listing is stuck in a store. -/
def StuckIn (stream : ChildStream) (store : Store) : Prop :=
  ∃ b, store.bucket? stream.bucket = some b ∧
    Stuck b stream.listed none (store.effectiveLimit stream.maxKeys)

/-! ## The requests of a stream -/

theorem Untouched.readable (h : s.Untouched) : s.request.Readable := by
  intro token htoken
  cases h.token.symm.trans htoken

/-- Behind an answer of a store in memory, the next request can be read. -/
theorem readable_receive (s : ChildStream) (store : Store) :
    (s.receive (store.list s.request)).2.request.Readable := by
  intro token htoken
  replace htoken : (s.receive (store.list s.request)).2.token = some token := htoken
  cases hverdict : verdict (store.list s.request) with
  | error e =>
    rw [receive_error s hverdict] at htoken
    cases htoken
  | ok _ =>
    obtain ⟨page, hpage, hcheck⟩ := verdict_eq_ok_iff.1 hverdict
    rw [hpage, receive_ok s hcheck, accept_entries] at htoken
    dsimp only at htoken
    split at htoken
    · exact Store.list_token hpage htoken
    · cases htoken

/-- **Every request of a stream** can be read, and is answered by the store as it then is. -/
theorem Asks.answered (hasks : Asks s events) (hlists : h.ListsFrom view)
    (hs : s.request.Readable) (hreplays : h.Replays t events t') :
    ∀ {earlier later : List Event} {x : Event}, events = earlier ++ x :: later →
      ∃ u g, h.Replays t earlier u ∧ SameListing s g ∧ g.request.Readable ∧
        x = g.asked ((view u).list g.request) := by
  induction hasks generalizing t with
  | nil =>
    intro earlier later x hsplit
    simp at hsplit
  | @cons s reply events unfinished rest ih =>
    obtain ⟨hreply, hrest⟩ := hreplays
    replace hreply : reply = (view t).list s.request := hreply.trans (hlists _ _ _)
    subst hreply
    intro earlier later x hsplit
    cases earlier with
    | nil =>
      cases hsplit
      exact ⟨t, s, rfl, .refl s, hs, rfl⟩
    | cons y earlier =>
      cases hsplit
      obtain ⟨u, g, hu, hsame, hg, rfl⟩ := ih (readable_receive s (view t)) hrest rfl
      exact ⟨u, g, ⟨hlists _ _ _ ▸ rfl, hu⟩, (receive_sameListing s _).trans hsame, hg, rfl⟩

/-- **A page that a stream was given** passes its check, unless the listing is stuck in the store
that made the page. -/
theorem Asks.page_checked (hasks : Asks s events) (hlists : h.ListsFrom view)
    (hs : s.request.Readable) (hreplays : h.Replays t events t') {earlier later : List Event}
    {x : Event} (hsplit : events = earlier ++ x :: later) {page : ListPage}
    (hpage : reply? x = some (.ok page)) :
    ∃ u, h.Replays t earlier u ∧ (page.check = .ok () ∨ s.StuckIn (view u)) := by
  obtain ⟨u, g, hu, hsame, hg, rfl⟩ := hasks.answered hlists hs hreplays hsplit
  refine ⟨u, hu, ?_⟩
  have hlist : (view u).list g.request = .ok page := Option.some.inj hpage
  obtain ⟨b, -, hb, -⟩ := Store.page_of_list hlist
  obtain ⟨page', hlist', ⟨-, hcheck⟩ | ⟨hstuck, -⟩⟩ := Store.list_checked hb hg
  · rw [hlist] at hlist'
    cases hlist'
    exact .inl hcheck
  · refine .inr ⟨b, hsame.bucket ▸ hb, ?_⟩
    rw [← hsame.listed, ← hsame.maxKeys]
    exact ⟨hstuck.whole, rfl, hstuck.single, hstuck.empty, hstuck.more⟩

/-! ## Failures -/

theorem Looks.failure_cases {answer : Result Bool} {e : FsError}
    (hlooks : Looks rounds s events answer s') (hfailed : answer = .error e) :
    e = .internal .unfinished ∨
      ∃ x ∈ events, ∃ reply, reply? x = some reply ∧ verdict reply = .error e := by
  induction hlooks with
  | ready | ended => cases hfailed
  | stopped =>
    cases hfailed
    exact .inl rfl
  | failed _ _ refused =>
    cases hfailed
    exact .inr ⟨_, List.mem_cons_self, _, rfl, refused⟩
  | fetched _ _ _ _ ih =>
    refine (ih hfailed).imp_right ?_
    rintro ⟨x, hx, hrefused⟩
    exact ⟨x, List.mem_cons_of_mem _ hx, hrefused⟩

/-- A pull fails when it may ask for no more pages, when a request fails, or at a page that does
not pass its check. -/
theorem Pulled.failure_cases {answer : Answer} {e : FsError}
    (hpulled : Pulled rounds s p events answer s') (hfailure : answer.failure? = some e) :
    e = .internal .unfinished ∨ (∃ x ∈ events, reply? x = some (.error e)) ∨
      ∃ x ∈ events, ∃ page, reply? x = some (.ok page) ∧ page.check = .error e := by
  refine ((hpulled.looks_of_failure hfailure).failure_cases rfl).imp_right ?_
  rintro ⟨x, hx, reply, hreply, hrefused⟩
  cases reply with
  | error e' =>
    cases hrefused
    exact .inl ⟨x, hx, hreply⟩
  | ok page => exact .inr ⟨x, hx, page, hreply, hrefused⟩

/-! ## All of them -/

/-- What a consumer can rely on at a pull of a stream over a store in memory that was in the state
`t` when the stream was new. -/
structure TakesPages (h : Handler σ) (view : σ → Store) (stream : ChildStream) (t : σ)
    (m : Moment σ) : Prop where
  pages : ∀ earlier x later page, m.asked ++ m.requests = earlier ++ x :: later →
    reply? x = some (.ok page) →
    ∃ u, h.Replays t earlier u ∧ (page.check = .ok () ∨ stream.StuckIn (view u))
  failures : ∀ e, m.answer.failure? = some e →
    e = .internal .unfinished ∨ (∃ x ∈ m.requests, reply? x = some (.error e)) ∨
      ∃ earlier x later u, m.asked ++ m.requests = earlier ++ x :: later ∧
        h.Replays t earlier u ∧ stream.StuckIn (view u)

/-- **Every page of a store in memory passes its check**, whatever the bucket, the request and its
token are, but one: the first page of a whole bucket, when it has room for the empty key only and
other keys are behind it.  So a stream refuses no other page either. -/
theorem pages_checked (hlists : h.ListsFrom view) :
    (∀ (s : Store) (r : ListQuery) (b : Bucket), s.bucket? r.bucket = some b → r.Readable →
      ∃ page, s.list r = .ok page ∧
        ((¬ Stuck b r.listed r.token (s.effectiveLimit r.maxKeys) ∧ page.check = .ok ()) ∨
          (Stuck b r.listed r.token (s.effectiveLimit r.maxKeys) ∧
            page.check = .error (.internal (.truncatedWithoutToken ""))))) ∧
    ∀ (fs : FileSystem) (bucket listed : String) (stream : ChildStream),
      ChildStream.new fs bucket listed = .ok stream →
      ∀ rounds ps p t, TakesPages h view stream t (stream.moment h rounds ps p t) := by
  refine ⟨fun s r b hb hreadable => Store.list_checked hb hreadable, ?_⟩
  intro fs bucket listed stream hnew rounds ps p t
  have hfollows := moment_follows h rounds stream ps p t
  have hreadable := (new_untouched hnew).1.readable
  obtain ⟨hasked, hrequests⟩ := moment_replays h rounds stream ps p t
  have hreplays := (Handler.replays_append h _ _ t _).2 ⟨_, hasked, hrequests⟩
  constructor
  case pages =>
    intro earlier x later page hsplit hpage
    exact hfollows.asks.page_checked hlists hreadable hreplays hsplit hpage
  case failures =>
    intro e hfailure
    refine (hfollows.pulled.failure_cases hfailure).imp_right (Or.imp_right ?_)
    rintro ⟨x, hx, page, hpage, hrefused⟩
    obtain ⟨before, behind, hsplit⟩ := List.append_of_mem hx
    have hall : (stream.moment h rounds ps p t).asked ++ (stream.moment h rounds ps p t).requests =
        ((stream.moment h rounds ps p t).asked ++ before) ++ x :: behind := by
      rw [hsplit, List.append_assoc]
    obtain ⟨u, hu, hgood | hstuck⟩ :=
      hfollows.asks.page_checked hlists hreadable hreplays hall hpage
    · rw [hgood] at hrefused
      cases hrefused
    · exact ⟨_, x, behind, u, hall, hu, hstuck⟩

/-- The second page of a bucket of two keys, and a stream over it. -/
theorem pages_checked_second :
    let o : ObjectRecord := ⟨[], "", .epoch, .byDefault⟩
    let b : Bucket := (KeyMap.empty.insert "" o).insert "a" o
    let s : Store := (Store.new 1 .epoch).setBucket "b" b
    let r : ListQuery := { bucket := "b", listed := "", token := some (Token.encode "") }
    let fs : FileSystem := ⟨0, ⟨"", ""⟩, {}, ⟨0, 0⟩, true⟩
    let stream : ChildStream := ⟨0, ⟨0, 0⟩, "b", "", 1000, [], [], none, false⟩
    Store.handler.ListsFrom Prod.fst ∧ s.bucket? "b" = some b ∧ r.Readable ∧
      ChildStream.new fs "b" "" = .ok stream ∧
      (∃ page, s.list r = .ok page ∧ page.check = .ok ()) ∧
      TakesPages Store.handler Prod.fst stream (s, .absent)
        (stream.moment Store.handler 3 [.next] .next (s, .absent)) := by
  intro o b s r fs stream
  have hb : s.bucket? "b" = some b := by simp [s]
  have hreadable : r.Readable := fun token htoken =>
    ⟨"", Option.some.inj htoken ▸ Token.decode_encode ""⟩
  have hnew : ChildStream.new fs "b" "" = .ok stream := rfl
  obtain ⟨hlist, hstream⟩ := pages_checked Store.handler_listsFrom
  refine ⟨Store.handler_listsFrom, hb, hreadable, hnew, ?_, hstream fs "b" "" stream hnew _ _ _ _⟩
  obtain ⟨page, hpage, ⟨-, hcheck⟩ | ⟨hstuck, -⟩⟩ := hlist s r b hb hreadable
  · exact ⟨page, hpage, hcheck⟩
  · cases hstuck.first

/-- The first page of the same bucket: its token has no text, and a stream fails there. -/
theorem first_page_refused :
    let made := (Store.new 1 .epoch).makeBucket "b"
    let s := ((made.put "b" "" [] none).2.put "b" "a" [] none).2
    let stream : ChildStream := ⟨0, ⟨0, 0⟩, "b", "", 1000, [], [], none, false⟩
    ∃ page, s.list { bucket := "b", listed := "" } = .ok page ∧ page.truncated = true ∧
      page.nextToken = some "" ∧ page.check = .error (.internal (.truncatedWithoutToken "")) ∧
      ((stream.collect 3).run.run Store.handler (s, .absent)).1 =
        .error (.internal (.truncatedWithoutToken "")) := by
  exact ⟨_, rfl, rfl, rfl, rfl, rfl⟩

end ChildStream

end BucketFs
