import BucketFs.Call.Program
import BucketFs.Proofs.Directory.Intake
import BucketFs.Proofs.Text.Names
import Mathlib.Data.List.Nodup

/-!
# What a directory stream reads

The answers to its requests make of a stream what it is, apart from the children that were taken
from its buffer.

* `ChildStream.reading` — a stream behind some requests, had nothing been taken from it.
* `ChildStream.Asks` — the requests of a stream, each with what it was answered by.
* `ChildStream.mem_seen_reading`, `ChildStream.InStep` — the names of a stream are those that the
  entries of its pages bring, and every child is the path of its name.
* `ChildStream.Asks.last_page`, `ChildStream.Asks.token` — a stream ends at a page that is not cut,
  and asks for what follows a page by the token of that page.
-/

namespace BucketFs.ChildStream

open BucketFs.Text

variable {s s' : ChildStream} {events : List Event}

/-! ## Requests and their answers -/

/-- The request of a stream for its next page, with an answer. -/
def asked (s : ChildStream) (reply : Result ListPage) : Event :=
  ⟨.store s.access (.list s.request), reply⟩

/-- The answer to a request for a page. -/
def reply? : Event → Option (Result ListPage)
  | ⟨.store _ (.list _), reply⟩ => some reply
  | _ => none

/-- A stream behind some requests, had nothing been taken from it. -/
def reading (s : ChildStream) (events : List Event) : ChildStream :=
  (events.filterMap reply?).foldl (fun s reply => (s.receive reply).2) s

@[simp] theorem reading_nil (s : ChildStream) : s.reading [] = s := rfl

@[simp] theorem reading_asked (s g : ChildStream) (reply : Result ListPage) (events : List Event) :
    s.reading (g.asked reply :: events) = (s.receive reply).2.reading events := rfl

theorem reading_append (s : ChildStream) (xs ys : List Event) :
    s.reading (xs ++ ys) = (s.reading xs).reading ys := by
  rw [reading, List.filterMap_append, List.foldl_append]
  rfl

/-- Whether two streams list the same directory in the same way. -/
structure SameListing (s s' : ChildStream) : Prop where
  fs : s'.fs = s.fs
  access : s'.access = s.access
  bucket : s'.bucket = s.bucket
  listed : s'.listed = s.listed
  maxKeys : s'.maxKeys = s.maxKeys

theorem SameListing.refl (s : ChildStream) : SameListing s s := ⟨rfl, rfl, rfl, rfl, rfl⟩

theorem SameListing.trans {s'' : ChildStream} (h : SameListing s s') (h' : SameListing s' s'') :
    SameListing s s'' :=
  ⟨h'.fs.trans h.fs, h'.access.trans h.access, h'.bucket.trans h.bucket, h'.listed.trans h.listed,
    h'.maxKeys.trans h.maxKeys⟩

theorem receive_sameListing (s : ChildStream) (reply : Result ListPage) :
    SameListing s (s.receive reply).2 := by
  cases hverdict : verdict reply with
  | error e =>
    rw [receive_error s hverdict]
    exact ⟨rfl, rfl, rfl, rfl, rfl⟩
  | ok _ =>
    obtain ⟨page, rfl, hpage⟩ := verdict_eq_ok_iff.1 hverdict
    rw [receive_ok s hpage, accept_entries]
    exact ⟨rfl, rfl, rfl, rfl, rfl⟩

theorem reading_sameListing (events : List Event) :
    ∀ s : ChildStream, SameListing s (s.reading events) := by
  simp only [reading]
  induction events.filterMap reply? with
  | nil => exact .refl
  | cons reply rest ih => exact fun s => (receive_sameListing s reply).trans (ih _)

/-- A stream into whose buffer some paths are put back. -/
def refilled (s : ChildStream) (paths : List Path) : ChildStream :=
  { s with buffer := paths ++ s.buffer }

/-- An answer does the same whatever is buffered. -/
theorem receive_refilled (s : ChildStream) (paths : List Path) (reply : Result ListPage) :
    ((s.refilled paths).receive reply).2 = (s.receive reply).2.refilled paths := by
  cases hverdict : verdict reply with
  | error e =>
    rw [receive_error _ hverdict, receive_error _ hverdict]
    rfl
  | ok _ =>
    obtain ⟨page, rfl, hpage⟩ := verdict_eq_ok_iff.1 hverdict
    rw [receive_ok _ hpage, receive_ok _ hpage, accept_entries, accept_entries]
    simp only [refilled, List.append_assoc]
    rfl

theorem reading_refilled (paths : List Path) (events : List Event) :
    ∀ s : ChildStream, (s.refilled paths).reading events = (s.reading events).refilled paths := by
  simp only [reading]
  induction events.filterMap reply? with
  | nil => intro s; rfl
  | cons reply rest ih =>
    intro s
    rw [List.foldl_cons, List.foldl_cons, receive_refilled, ih]

/-- Whether requests are those of a stream that takes in the answers and is not at its end before
any of them. -/
inductive Asks : ChildStream → List Event → Prop
  | nil {s : ChildStream} : Asks s []
  | cons {s : ChildStream} {reply : Result ListPage} {events : List Event}
      (unfinished : s.exhausted = false) (rest : Asks (s.receive reply).2 events) :
      Asks s (s.asked reply :: events)

theorem Asks.append {xs ys : List Event} (hxs : Asks s xs) (hys : Asks (s.reading xs) ys) :
    Asks s (xs ++ ys) := by
  induction hxs with
  | nil => exact hys
  | cons unfinished _ ih => exact .cons unfinished (ih hys)

/-- The requests of a stream do not depend on what it has buffered. -/
theorem Asks.refilled (hasks : Asks s events) (paths : List Path) :
    Asks (s.refilled paths) events := by
  induction hasks with
  | nil => exact .nil
  | @cons s _ _ unfinished _ hrest =>
    rw [← receive_refilled] at hrest
    exact .cons (s := s.refilled paths) unfinished hrest

theorem Asks.split {xs ys : List Event} (hasks : Asks s (xs ++ ys)) : Asks (s.reading xs) ys := by
  induction xs generalizing s with
  | nil => exact hasks
  | cons x rest ih =>
    generalize hsplit : x :: rest ++ ys = events at hasks
    cases hasks with
    | nil => cases hsplit
    | cons _ later =>
      cases hsplit
      exact ih later

/-- All requests are about the listing of the stream. -/
theorem Asks.lists (hasks : Asks s events) :
    ∀ x ∈ events, ∃ g reply, SameListing s g ∧ x = g.asked reply := by
  induction hasks with
  | nil => exact fun _ hx => (List.not_mem_nil hx).elim
  | @cons s reply events _ _ ih =>
    intro x hx
    rcases List.mem_cons.1 hx with rfl | hx
    · exact ⟨s, reply, .refl s, rfl⟩
    · obtain ⟨g, reply', hsame, rfl⟩ := ih x hx
      exact ⟨g, reply', (receive_sameListing s reply).trans hsame, rfl⟩

/-- **A stream ends** at a page that is taken in and not cut. -/
theorem Asks.last_page (hasks : Asks s events) (hunfinished : s.exhausted = false)
    (hend : (s.reading events).exhausted = true) :
    ∃ (earlier : List Event) (g : ChildStream) (page : ListPage),
      events = earlier ++ [g.asked (.ok page)] ∧ page.check = .ok () ∧ page.truncated = false := by
  induction hasks with
  | nil =>
    rw [reading_nil, hunfinished] at hend
    cases hend
  | @cons s reply events _ rest ih =>
    cases hnext : (s.receive reply).2.exhausted with
    | false =>
      obtain ⟨earlier, g, page, rfl, hpage⟩ := ih hnext hend
      exact ⟨s.asked reply :: earlier, g, page, rfl, hpage⟩
    | true =>
      -- a stream at its end asks for nothing
      have hevents : events = [] := by
        cases rest with
        | nil => rfl
        | cons unfinished =>
          rw [hnext] at unfinished
          cases unfinished
      subst hevents
      cases hverdict : verdict reply with
      | error e =>
        rw [receive_error s hverdict] at hnext
        exact absurd (hunfinished.symm.trans hnext) Bool.false_ne_true
      | ok _ =>
        obtain ⟨page, rfl, hpage⟩ := verdict_eq_ok_iff.1 hverdict
        refine ⟨[], s, page, rfl, hpage, ?_⟩
        rw [receive_ok s hpage, accept_entries] at hnext
        dsimp only at hnext
        cases htruncated : page.truncated with
        | false => rfl
        | true =>
          rw [htruncated, if_pos rfl, hunfinished] at hnext
          cases hnext

/-- **The request behind a page that is cut** carries the token of that page. -/
theorem Asks.token {earlier later : List Event} {x y : Event} {page : ListPage}
    (hasks : Asks s (earlier ++ x :: y :: later)) (hreply : reply? x = some (.ok page))
    (hpage : page.check = .ok ()) (htruncated : page.truncated = true) :
    ∃ (g : ChildStream) (reply : Result ListPage),
      y = g.asked reply ∧ g.token = page.nextToken := by
  cases hasks.split with
  | @cons _ reply _ _ rest =>
    cases hreply
    cases rest with
    | @cons _ reply' =>
      refine ⟨_, reply', rfl, ?_⟩
      rw [receive_ok _ hpage, accept_entries]
      exact if_pos htruncated

/-! ## New streams -/

/-- A stream that was not asked anything. -/
structure Untouched (s : ChildStream) : Prop where
  buffer : s.buffer = []
  seen : s.seen = []
  token : s.token = none
  unfinished : s.exhausted = false

/-- A new stream lists the whole bucket or a prefix that ends in the separator. -/
theorem new_untouched {fs : FileSystem} {bucket listed : String}
    (hnew : new fs bucket listed = .ok s) :
    s.Untouched ∧ s.access = fs.access ∧ s.bucket = bucket ∧
      (s.listed = "" ∨ endsInSeparator s.listed = true) := by
  unfold new at hnew
  cases hopen : fs.checkOpen with
  | error e =>
    rw [hopen] at hnew
    cases hnew
  | ok _ =>
    rw [hopen] at hnew
    simp only [bind, Except.bind] at hnew
    generalize (if listed = slash then "" else listed) = below at hnew
    split at hnew
    · cases hnew
    · rename_i hlisted
      cases hnew
      refine ⟨⟨rfl, rfl, rfl, rfl⟩, rfl, rfl, ?_⟩
      dsimp only
      by_cases hempty : below = ""
      · exact .inl hempty
      · refine .inr ?_
        simpa [hempty] using hlisted

/-- Answers that are all errors leave a stream without a token as it is. -/
theorem reading_of_errors (htoken : s.token = none)
    (herrors : ∀ x ∈ events, ∃ e, reply? x = some (.error e)) : s.reading events = s := by
  have hreplies : ∀ reply ∈ events.filterMap reply?, (s.receive reply).2 = s := by
    intro reply hreply
    obtain ⟨x, hx, hreply⟩ := List.mem_filterMap.1 hreply
    obtain ⟨e, he⟩ := herrors x hx
    obtain rfl := Option.some.inj (hreply.symm.trans he)
    rw [receive_error (e := e) s rfl, ← htoken]
  rw [reading]
  generalize events.filterMap reply? = replies at hreplies
  induction replies with
  | nil => rfl
  | cons reply rest ih =>
    rw [List.foldl_cons, hreplies reply List.mem_cons_self]
    exact ih fun r hr => hreplies r (List.mem_cons_of_mem _ hr)

/-! ## Names -/

/-- A page that leaves the buffer empty brought no name. -/
theorem seen_eq_of_empty {reply : Result ListPage} (hbuffer : (s.receive reply).2.buffer = []) :
    (s.receive reply).2.seen = s.seen := by
  cases hverdict : verdict reply with
  | error e => rw [receive_error s hverdict]
  | ok _ =>
    obtain ⟨page, rfl, hpage⟩ := verdict_eq_ok_iff.1 hverdict
    rw [receive_ok s hpage, accept_entries] at hbuffer ⊢
    dsimp only at hbuffer ⊢
    rw [List.append_eq_nil_iff, List.map_eq_nil_iff] at hbuffer
    rw [seenAfter, hbuffer.2]
    rfl

/-- The text that an entry adds a name with: the prefix, the name, and separators. -/
theorem entry_of_childOf? {listed e n : String} (h : childOf? listed e = some n) :
    n ≠ "" ∧ ∃ rest cs, e = listed ++ rest ∧ trimEnd separator rest = n ∧
      rest = n ++ String.ofList cs ∧ ∀ c ∈ cs, c = separator := by
  cases hdrop : dropPrefix? listed e with
  | none =>
    rw [childOf?, hdrop] at h
    cases h
  | some rest =>
    obtain ⟨rest', rfl⟩ : ∃ rest', e = listed ++ rest' := by
      refine hasPrefix_iff_exists.1 ?_
      rw [dropPrefix?] at hdrop
      split at hdrop
      · assumption
      · cases hdrop
    obtain ⟨htrim, hn⟩ := childOf?_append.1 h
    obtain ⟨cs, hcs, hrest⟩ := exists_trimmed rest'
    rw [htrim] at hrest
    exact ⟨hn, rest', cs, rfl, htrim, hrest, hcs⟩

/-- **An entry adds a name** if behind the prefix it has anything but separators. -/
theorem childOf?_isSome_iff {listed e : String} : (childOf? listed e).isSome = true ↔
    ∃ rest, e = listed ++ rest ∧ ∃ c ∈ rest.toList, c ≠ separator := by
  have hrest : ∀ rest : String, trimEnd separator rest ≠ "" ↔ ∃ c ∈ rest.toList, c ≠ separator := by
    intro rest
    simp only [ne_eq, trimEnd_eq_empty_iff, not_forall, exists_prop]
  rw [Option.isSome_iff_exists]
  constructor
  · rintro ⟨n, hn⟩
    obtain ⟨hne, rest, -, rfl, htrim, -⟩ := entry_of_childOf? hn
    exact ⟨rest, rfl, (hrest rest).1 (htrim ▸ hne)⟩
  · rintro ⟨rest, rfl, hchar⟩
    exact ⟨_, childOf?_append.2 ⟨rfl, (hrest rest).2 hchar⟩⟩

/-- The path of a name. -/
def pathOf (s : ChildStream) (name : String) : Path := .ofBucketKey s.fs s.bucket (s.listed ++ name)

/-- Every entry that brings a name has the path of the name. -/
theorem childPath_eq_pathOf {e n : String} (h : childOf? s.listed e = some n) :
    s.childPath e = s.pathOf n := by
  obtain ⟨-, rest, cs, rfl, -, rfl, hcs⟩ := entry_of_childOf? h
  rw [childPath, pathOf, Path.ofBucketKey, ← String.append_assoc, names_append_separators hcs]
  rfl

theorem SameListing.pathOf_eq (h : SameListing s s') : s'.pathOf = s.pathOf := by
  funext n
  rw [pathOf, pathOf, h.fs, h.bucket, h.listed]

/-- **The names of a stream** after an answer: those of the entries of its page come in. -/
theorem mem_seen_receive {reply : Result ListPage} {n : String} :
    n ∈ (s.receive reply).2.seen ↔ n ∈ s.seen ∨ ∃ page, reply = .ok page ∧ page.check = .ok () ∧
      ∃ e ∈ page.names, childOf? s.listed e = some n := by
  cases hverdict : verdict reply with
  | error e =>
    rw [receive_error s hverdict]
    refine ⟨.inl, ?_⟩
    rintro (h | ⟨page, rfl, hpage, -⟩)
    · exact h
    · rw [verdict_eq_ok_iff.2 ⟨page, rfl, hpage⟩] at hverdict
      cases hverdict
  | ok _ =>
    obtain ⟨page, rfl, hpage⟩ := verdict_eq_ok_iff.1 hverdict
    rw [receive_ok s hpage, accept_entries]
    refine mem_seenAfter_iff.trans (or_congr_right ?_)
    constructor
    · rintro ⟨e, he, hname⟩
      exact ⟨page, rfl, hpage, e, (mem_childEntries.1 he).1, hname⟩
    · rintro ⟨page', hpage', -, e, he, hname⟩
      cases hpage'
      refine ⟨e, mem_childEntries.2 ⟨he, ?_⟩, hname⟩
      rintro rfl
      exact absurd (childOf?_self _ ▸ hname) (by simp)

theorem mem_seen_reading {n : String} (events : List Event) : ∀ s : ChildStream,
    n ∈ (s.reading events).seen ↔ n ∈ s.seen ∨ ∃ x ∈ events, ∃ page, reply? x = some (.ok page) ∧
      page.check = .ok () ∧ ∃ e ∈ page.names, childOf? s.listed e = some n := by
  induction events with
  | nil => intro s; simp
  | cons x rest ih =>
    intro s
    cases hreply : reply? x with
    | none =>
      have hskip : s.reading (x :: rest) = s.reading rest := by simp [reading, hreply]
      rw [hskip, ih s]
      simp [hreply]
    | some reply =>
      have hnext : s.reading (x :: rest) = (s.receive reply).2.reading rest := by
        simp [reading, hreply]
      rw [hnext, ih, mem_seen_receive, (receive_sameListing s reply).listed, or_assoc]
      simp [hreply]

/-- Whether the buffer of a stream has the path of each of its names, in order. -/
structure InStep (s : ChildStream) : Prop where
  distinct : s.seen.Nodup
  buffer : s.buffer = s.seen.reverse.map s.pathOf

theorem Untouched.inStep (h : s.Untouched) : s.InStep := by
  constructor
  case distinct => rw [h.seen]; exact .nil
  case buffer => rw [h.seen, h.buffer]; rfl

theorem InStep.receive (h : s.InStep) (reply : Result ListPage) : (s.receive reply).2.InStep := by
  cases hverdict : verdict reply with
  | error e =>
    rw [receive_error s hverdict]
    exact ⟨h.distinct, h.buffer⟩
  | ok _ =>
    obtain ⟨page, rfl, hpage⟩ := verdict_eq_ok_iff.1 hverdict
    rw [receive_ok s hpage, accept_entries]
    refine ⟨seenAfter_nodup h.distinct, ?_⟩
    dsimp only
    rw [h.buffer, seenAfter, List.reverse_append, List.reverse_reverse, List.map_append,
      List.map_map]
    congr 1
    exact List.map_congr_left fun c hc => childPath_eq_pathOf (of_mem_fresh hc).2.2

theorem InStep.reading (h : s.InStep) (events : List Event) : (s.reading events).InStep := by
  rw [ChildStream.reading]
  generalize events.filterMap reply? = replies
  induction replies generalizing s with
  | nil => exact h
  | cons reply rest ih => exact ih (h.receive reply)

/-- The path of every name of a stream was buffered, and nothing else. -/
theorem InStep.mem_buffer_iff (h : s.InStep) {path : Path} :
    path ∈ s.buffer ↔ ∃ n ∈ s.seen, s.pathOf n = path := by
  rw [h.buffer, List.mem_map]
  simp only [List.mem_reverse]

/-- An entry without separators behind the prefix, other than one at its end, brings one name. -/
theorem isName_of_childOf? {listed rest n : String} (h : childOf? listed (listed ++ rest) = some n)
    (hrest : separator ∉ rest.toList.dropLast) : IsName n := by
  obtain ⟨htrim, hn⟩ := childOf?_append.1 h
  refine ⟨hn, fun hmem => ?_⟩
  obtain ⟨cs, -, hsplit⟩ := exists_trimmed rest
  have hchars : rest.toList = n.toList ++ cs := by
    have := congrArg String.toList hsplit
    rwa [htrim, String.toList_append, String.toList_ofList] at this
  rw [hchars] at hrest
  rcases List.eq_nil_or_concat cs with rfl | ⟨front, c, rfl⟩
  · -- then the separator is the last character of the name
    rw [List.append_nil] at hrest
    have hlast := endsInSeparator_trimEnd rest
    rw [htrim, endsInSeparator, beq_eq_false_iff_ne] at hlast
    rw [← List.dropLast_concat_getLast (List.ne_nil_of_mem hmem), List.mem_append,
      List.mem_singleton] at hmem
    rcases hmem with hmem | hmem
    · exact hrest hmem
    · exact hlast (by rw [List.getLast?_eq_some_getLast, hmem])
  · rw [List.concat_eq_append, ← List.append_assoc, List.dropLast_concat] at hrest
    exact hrest (List.mem_append_left _ hmem)

/-- **Different names have different paths.** -/
theorem InStep.nodup (h : s.InStep) (hlisted : s.listed = "" ∨ endsInSeparator s.listed = true)
    (hnames : ∀ n ∈ s.seen, IsName n) : s.buffer.Nodup := by
  rw [h.buffer]
  refine List.Nodup.map_on (fun n hn k hk heq => ?_) (List.nodup_reverse.2 h.distinct)
  have hpaths := congrArg Path.segments heq
  simp only [pathOf, Path.ofBucketKey, List.append_cancel_left_eq] at hpaths
  rw [names_append_name hlisted (hnames n (List.mem_reverse.1 hn)),
    names_append_name hlisted (hnames k (List.mem_reverse.1 hk)),
    List.append_cancel_left_eq] at hpaths
  exact List.singleton_inj.1 hpaths

end BucketFs.ChildStream
