import BucketFs.Proofs.Call.Events
import BucketFs.Proofs.Directory.Reading

/-!
# Consumers of a directory stream

A consumer asks a stream whether there is more and for the next child, in any order, and may go on
after an error.

* `ChildStream.pulls` — a consumer as a program, and `ChildStream.moment` — one of its pulls with
  all that came before.
* `ChildStream.Looks` — how a stream looks for a child: it asks for pages as long as it has none.
* `ChildStream.Moment.Follows.read` — whatever is pulled in whatever order, the children that were
  given and those still buffered are together what was read.
-/

namespace BucketFs.ChildStream

variable {σ : Type} {h : Handler σ} {rounds : Nat} {s s' : ChildStream} {p : Pull}
  {events : List Event}

/-! ## Consumers -/

/-- What a consumer may ask. -/
inductive Pull where
  | hasMore
  | next
  deriving DecidableEq, Repr

/-- What a consumer is told. -/
inductive Answer where
  | more (answer : Result Bool)
  | child (answer : Result (Option Path))

namespace Answer

/-- The child that is given. -/
def path? : Answer → Option Path
  | .child (.ok path) => path
  | _ => none

/-- The error that is reported. -/
def failure? : Answer → Option FsError
  | .more (.error e) => some e
  | .child (.error e) => some e
  | _ => none

theorem path?_eq_none {a : Answer} {e : FsError} (h : a.failure? = some e) : a.path? = none := by
  cases a with
  | more => rfl
  | child answer =>
    cases answer with
    | error => rfl
    | ok => cases h

/-- Whether the end of the stream is reported. -/
def IsEnd (a : Answer) : Prop := a = .more (.ok false) ∨ a = .child (.ok none)

end Answer

/-- The children that a consumer was given. -/
def given (answers : List Answer) : List Path := answers.filterMap Answer.path?

/-- Asks a stream once. -/
def pull (rounds : Nat) (s : ChildStream) : Pull → Program (Answer × ChildStream)
  | .hasMore => (hasMore rounds s).bind fun (answer, s) => .done (.more answer, s)
  | .next => (next rounds s).bind fun (answer, s) => .done (.child answer, s)

/-- Asks a stream again and again, whatever it answers. -/
def pulls (rounds : Nat) : List Pull → ChildStream → Program (List Answer × ChildStream)
  | [], s => .done ([], s)
  | p :: rest, s =>
    (s.pull rounds p).bind fun (answer, s) =>
      (pulls rounds rest s).bind fun (answers, s) => .done (answer :: answers, s)

/-- One pull of a consumer and what came before it. -/
structure Moment (σ : Type) where
  /-- The stream, the store and its surroundings when the pull begins. -/
  stream : ChildStream
  state : σ
  /-- The requests of all pulls before, and what they were answered by. -/
  asked : List Event
  /-- The answers to all pulls before. -/
  answers : List Answer
  pull : Pull
  /-- The requests of this pull. -/
  requests : List Event
  answer : Answer
  /-- The stream and the surroundings behind the pull. -/
  next : ChildStream
  final : σ

/-- All children given up to and with a pull. -/
def Moment.given (m : Moment σ) : List Path := ChildStream.given (m.answers ++ [m.answer])

/-- No child is given by a pull that fails. -/
theorem Moment.given_of_failure {m : Moment σ} {e : FsError} (h : m.answer.failure? = some e) :
    m.given = ChildStream.given m.answers := by
  simp [given, ChildStream.given, Answer.path?_eq_none h]

/-- The pull `p` of a consumer behind the pulls `ps`. -/
def moment (h : Handler σ) (rounds : Nat) (stream : ChildStream) (ps : List Pull) (p : Pull)
    (t : σ) : Moment σ :=
  let before := (stream.pulls rounds ps).run h t
  let now := (before.1.2.pull rounds p).run h before.2
  { stream := before.1.2
    state := before.2
    asked := (stream.pulls rounds ps).events h t
    answers := before.1.1
    pull := p
    requests := (before.1.2.pull rounds p).events h before.2
    answer := now.1.1
    next := now.1.2
    final := now.2 }

/-! ## One pull -/

/-- How a stream looks for a child, with the requests that it makes. -/
inductive Looks : Nat → ChildStream → List Event → Result Bool → ChildStream → Prop
  | ready {rounds : Nat} {s : ChildStream} (buffered : s.buffer ≠ []) :
      Looks rounds s [] (.ok true) s
  | ended {rounds : Nat} {s : ChildStream} (empty : s.buffer = []) (ended : s.exhausted = true) :
      Looks rounds s [] (.ok false) s
  | stopped {s : ChildStream} (empty : s.buffer = []) (unfinished : s.exhausted = false) :
      Looks 0 s [] (.error (.internal .unfinished)) s
  | failed {rounds : Nat} {s : ChildStream} {reply : Result ListPage} {e : FsError}
      (empty : s.buffer = []) (unfinished : s.exhausted = false)
      (refused : verdict reply = .error e) :
      Looks (rounds + 1) s [s.asked reply] (.error e) (s.receive reply).2
  | fetched {rounds : Nat} {s s' : ChildStream} {reply : Result ListPage} {events : List Event}
      {answer : Result Bool} (empty : s.buffer = []) (unfinished : s.exhausted = false)
      (taken : verdict reply = .ok ()) (rest : Looks rounds (s.receive reply).2 events answer s') :
      Looks (rounds + 1) s (s.asked reply :: events) answer s'

theorem hasMore_ready (hbuffer : s.buffer ≠ []) : hasMore rounds s = .done (.ok true, s) := by
  cases rounds <;> rw [hasMore, if_pos hbuffer]

theorem hasMore_ended (hbuffer : s.buffer = []) (hend : s.exhausted = true) :
    hasMore rounds s = .done (.ok false, s) := by
  cases rounds <;> rw [hasMore, if_neg (not_not_intro hbuffer), if_pos hend]

theorem hasMore_looks (h : Handler σ) : ∀ (rounds : Nat) (s : ChildStream) (t : σ),
    Looks rounds s ((hasMore rounds s).events h t) ((hasMore rounds s).run h t).1.1
      ((hasMore rounds s).run h t).1.2 := by
  intro rounds s t
  by_cases hbuffer : s.buffer = []
  · cases hend : s.exhausted with
    | true =>
      rw [hasMore_ended hbuffer hend]
      exact .ended hbuffer hend
    | false =>
      cases rounds with
      | zero =>
        rw [hasMore, if_neg (not_not_intro hbuffer), if_neg (by simp [hend])]
        exact .stopped hbuffer hend
      | succ rounds =>
        rw [hasMore, if_neg (not_not_intro hbuffer), if_neg (by simp [hend])]
        simp only [Program.events, Program.run_call]
        generalize (h (.store s.access (.list s.request)) t).1 = reply
        generalize (h (.store s.access (.list s.request)) t).2 = t'
        have hreceive : s.receive reply = (verdict reply, (s.receive reply).2) :=
          Prod.ext (receive_fst s reply) rfl
        rw [hreceive]
        cases hverdict : verdict reply with
        | error e => exact .failed hbuffer hend hverdict
        | ok _ => exact .fetched hbuffer hend hverdict (hasMore_looks h rounds _ t')
  · rw [hasMore_ready hbuffer]
    exact .ready hbuffer

/-- What a pull comes to, with the requests that it makes. -/
inductive Pulled (rounds : Nat) (s : ChildStream) :
    Pull → List Event → Answer → ChildStream → Prop
  | hasMore {events : List Event} {answer : Result Bool} {s' : ChildStream}
      (looks : Looks rounds s events answer s') : Pulled rounds s .hasMore events (.more answer) s'
  | refused {events : List Event} {e : FsError} {s' : ChildStream}
      (looks : Looks rounds s events (.error e) s') :
      Pulled rounds s .next events (.child (.error e)) s'
  | next {events : List Event} {more : Bool} {s' : ChildStream}
      (looks : Looks rounds s events (.ok more) s') :
      Pulled rounds s .next events (.child (.ok s'.buffer.head?))
        { s' with buffer := s'.buffer.tail }

theorem pull_pulled (h : Handler σ) (rounds : Nat) (s : ChildStream) (p : Pull) (t : σ) :
    Pulled rounds s p ((s.pull rounds p).events h t) ((s.pull rounds p).run h t).1.1
      ((s.pull rounds p).run h t).1.2 := by
  have hlooks := hasMore_looks h rounds s t
  cases p with
  | hasMore =>
    simp only [pull, Program.events_bind, Program.run_bind, Program.run_done, Program.events,
      List.append_nil]
    exact .hasMore hlooks
  | next =>
    simp only [pull, ChildStream.next, Program.events_bind, Program.run_bind]
    generalize (hasMore rounds s).events h t = events at hlooks
    generalize (hasMore rounds s).run h t = found at hlooks
    obtain ⟨⟨answer, s'⟩, t'⟩ := found
    cases answer with
    | error e => simpa [Program.events] using Pulled.refused hlooks
    | ok more => simpa [Program.events] using Pulled.next hlooks

/-! ## What a look comes to -/

section Looks

variable {answer : Result Bool} {e : FsError}

theorem Looks.eq_reading (hlooks : Looks rounds s events answer s') :
    s' = s.reading events := by
  induction hlooks with
  | ready | ended | stopped => rfl
  | failed => rfl
  | fetched _ _ _ _ ih => rw [ih, reading_asked]

theorem Looks.asks (hlooks : Looks rounds s events answer s') : Asks s events := by
  induction hlooks with
  | ready | ended | stopped => exact .nil
  | failed _ unfinished _ => exact .cons unfinished .nil
  | fetched _ unfinished _ _ ih => exact .cons unfinished ih

theorem Looks.buffer_ne_nil (hlooks : Looks rounds s events answer s')
    (hfound : answer = .ok true) : s'.buffer ≠ [] := by
  induction hlooks with
  | ready buffered => exact buffered
  | ended | stopped | failed => cases hfound
  | fetched _ _ _ _ ih => exact ih hfound

theorem Looks.exhausted (hlooks : Looks rounds s events answer s') (hend : answer = .ok false) :
    s'.buffer = [] ∧ s'.exhausted = true := by
  induction hlooks with
  | ended empty ended => exact ⟨empty, ended⟩
  | ready | stopped | failed => cases hend
  | fetched _ _ _ _ ih => exact ih hend

/-- What is buffered stays in front. -/
theorem Looks.buffer_kept (hlooks : Looks rounds s events answer s') :
    s.buffer <+: s'.buffer := by
  cases hlooks with
  | ready | ended | stopped => exact List.prefix_rfl
  | failed empty | fetched empty =>
    rw [empty]
    exact List.nil_prefix

/-- **A page is asked for** only when nothing is buffered. -/
theorem Looks.idle (hlooks : Looks rounds s events answer s') :
    ∀ {earlier later : List Event} {x : Event}, events = earlier ++ x :: later →
      (s.reading earlier).buffer = [] := by
  induction hlooks with
  | ready | ended | stopped =>
    intro earlier later x hsplit
    simp at hsplit
  | failed empty =>
    intro earlier later x hsplit
    obtain ⟨rfl, -⟩ | ⟨_, _, hnil⟩ := List.cons_eq_append_iff.1 hsplit
    · exact empty
    · simp at hnil
  | fetched empty _ _ _ ih =>
    intro earlier later x hsplit
    obtain ⟨rfl, -⟩ | ⟨rest, rfl, hrest⟩ := List.cons_eq_append_iff.1 hsplit
    · exact empty
    · rw [reading_asked]
      exact ih hrest

/-- An answer that is refused ends the look with its error. -/
theorem Looks.refused (hlooks : Looks rounds s events answer s') {x : Event}
    {reply : Result ListPage} (hx : x ∈ events) (hreply : reply? x = some reply)
    (hverdict : verdict reply = .error e) : answer = .error e := by
  induction hlooks with
  | ready | ended | stopped => cases hx
  | failed _ _ refused =>
    obtain rfl := List.mem_singleton.1 hx
    cases hreply
    rw [hverdict] at refused
    cases refused
    rfl
  | fetched _ _ taken _ ih =>
    rcases List.mem_cons.1 hx with rfl | hx
    · cases hreply
      rw [hverdict] at taken
      cases taken
    · exact ih hx

/-- **A look that fails** adds no child. -/
theorem Looks.adds_nothing (hlooks : Looks rounds s events answer s')
    (hfailed : answer = .error e) : s.buffer = [] ∧ s'.buffer = [] ∧ s'.seen = s.seen := by
  induction hlooks with
  | ready | ended => cases hfailed
  | stopped empty => exact ⟨empty, empty, rfl⟩
  | failed empty _ refused =>
    rw [receive_error _ refused]
    exact ⟨empty, empty, rfl⟩
  | fetched empty _ _ _ ih =>
    obtain ⟨hbefore, hafter, hseen⟩ := ih hfailed
    exact ⟨empty, hafter, hseen.trans (seen_eq_of_empty hbefore)⟩

end Looks

section Pulled

variable {answer : Answer} {e : FsError}

theorem Pulled.looks (hpulled : Pulled rounds s p events answer s') :
    ∃ found s'', Looks rounds s events found s'' := by
  cases hpulled with
  | hasMore looks | refused looks | next looks => exact ⟨_, _, looks⟩

/-- The end is reported only when nothing is buffered and the last page was read. -/
theorem Pulled.exhausted (hpulled : Pulled rounds s p events answer s') (hend : answer.IsEnd) :
    s'.buffer = [] ∧ s'.exhausted = true := by
  cases hpulled with
  | hasMore looks =>
    rcases hend with hend | hend
    · exact looks.exhausted (Answer.more.inj hend)
    · cases hend
  | refused => rcases hend with hend | hend <;> cases hend
  | @next events more s' looks =>
    rcases hend with hend | hend
    · cases hend
    · have hempty : s'.buffer = [] :=
        List.head?_eq_none_iff.1 (Except.ok.inj (Answer.child.inj hend))
      cases more with
      | true => exact absurd hempty (looks.buffer_ne_nil rfl)
      | false => exact ⟨by rw [hempty]; rfl, (looks.exhausted rfl).2⟩

theorem Pulled.looks_of_failure (hpulled : Pulled rounds s p events answer s')
    (hfailure : answer.failure? = some e) : Looks rounds s events (.error e) s' := by
  cases hpulled with
  | @hasMore _ found _ looks =>
    cases found with
    | ok => cases hfailure
    | error =>
      cases hfailure
      exact looks
  | refused looks =>
    cases hfailure
    exact looks
  | next => cases hfailure

/-- A pull with a request whose answer is refused reports that error. -/
theorem Pulled.failure_of_refused (hpulled : Pulled rounds s p events answer s') {x : Event}
    {reply : Result ListPage} (hx : x ∈ events) (hreply : reply? x = some reply)
    (hverdict : verdict reply = .error e) : answer.failure? = some e := by
  cases hpulled with
  | hasMore looks =>
    rw [looks.refused hx hreply hverdict]
    rfl
  | refused looks =>
    cases looks.refused hx hreply hverdict
    rfl
  | next looks => cases looks.refused hx hreply hverdict

end Pulled

/-! ## All pulls -/

/-- The course of some pulls: what a stream asks for, and that what was given and what is left are
together what was read. -/
structure Course (s : ChildStream) (events : List Event) (answers : List Answer)
    (s' : ChildStream) : Prop where
  asks : Asks s events
  read : s'.refilled (given answers) = s.reading events

theorem Course.append {s'' : ChildStream} {later : List Event} {answers more : List Answer}
    (hfirst : Course s events answers s') (hrest : Course s' later more s'') :
    Course s (events ++ later) (answers ++ more) s'' := by
  constructor
  case asks =>
    refine hfirst.asks.append ?_
    rw [← hfirst.read]
    exact hrest.asks.refilled _
  case read =>
    rw [reading_append, ← hfirst.read, reading_refilled, ← hrest.read]
    simp only [given, refilled, List.filterMap_append, List.append_assoc]

theorem Pulled.course {answer : Answer} (hpulled : Pulled rounds s p events answer s') :
    Course s events [answer] s' := by
  cases hpulled with
  | hasMore looks | refused looks =>
    exact ⟨looks.asks, by rw [← looks.eq_reading]; rfl⟩
  | @next _ _ s' looks =>
    refine ⟨looks.asks, ?_⟩
    rw [← looks.eq_reading]
    have hbuffer : given [.child (.ok s'.buffer.head?)] ++ s'.buffer.tail = s'.buffer := by
      cases s'.buffer <;> rfl
    rw [refilled]
    dsimp only
    rw [hbuffer]

theorem pulls_course (h : Handler σ) (rounds : Nat) (ps : List Pull) :
    ∀ (s : ChildStream) (t : σ),
      Course s ((s.pulls rounds ps).events h t) ((s.pulls rounds ps).run h t).1.1
        ((s.pulls rounds ps).run h t).1.2 := by
  induction ps with
  | nil => intro s t; exact ⟨.nil, rfl⟩
  | cons p rest ih =>
    intro s t
    have hfirst := (pull_pulled h rounds s p t).course
    simp only [pulls, Program.events_bind, Program.run_bind, Program.run_done, Program.events,
      List.append_nil]
    exact hfirst.append (ih _ _)

/-- Whether a pull goes on where the pulls before it have left a stream. -/
structure Moment.Follows (m : Moment σ) (rounds : Nat) (stream : ChildStream) : Prop where
  course : Course stream m.asked m.answers m.stream
  pulled : Pulled rounds m.stream m.pull m.requests m.answer m.next

theorem moment_follows (h : Handler σ) (rounds : Nat) (stream : ChildStream) (ps : List Pull)
    (p : Pull) (t : σ) : (stream.moment h rounds ps p t).Follows rounds stream :=
  ⟨pulls_course h rounds ps stream t, pull_pulled h rounds _ p _⟩

/-- The requests of a consumer are answered one after the other. -/
theorem moment_replays (h : Handler σ) (rounds : Nat) (stream : ChildStream) (ps : List Pull)
    (p : Pull) (t : σ) :
    let m := stream.moment h rounds ps p t
    h.Replays t m.asked m.state ∧ h.Replays m.state m.requests m.final :=
  ⟨Program.replays h _ t, Program.replays h _ _⟩

namespace Moment.Follows

variable {m : Moment σ} {stream : ChildStream} (hm : m.Follows rounds stream)
include hm

theorem asks : Asks stream (m.asked ++ m.requests) := (hm.course.append hm.pulled.course).asks

/-- **Whatever a consumer pulls**, what it was given and what is left are together what was read. -/
theorem read : m.next.refilled m.given = stream.reading (m.asked ++ m.requests) :=
  (hm.course.append hm.pulled.course).read

/-- At the end of a stream everything that was read has been given, and the last page was read. -/
theorem all_given (hend : m.answer.IsEnd) :
    m.given = (stream.reading (m.asked ++ m.requests)).buffer ∧
      (stream.reading (m.asked ++ m.requests)).exhausted = true := by
  obtain ⟨hbuffer, hexhausted⟩ := hm.pulled.exhausted hend
  rw [← hm.read, refilled]
  exact ⟨by rw [hbuffer, List.append_nil], hexhausted⟩

/-- **A page is asked for** only when all that was read has been given. -/
theorem prompt {earlier later : List Event} {x : Event}
    (hsplit : m.requests = earlier ++ x :: later) :
    (stream.reading (m.asked ++ earlier)).buffer = ChildStream.given m.answers := by
  obtain ⟨answer, s'', hlooks⟩ := hm.pulled.looks
  rw [reading_append, ← hm.course.read, reading_refilled, refilled, hlooks.idle hsplit,
    List.append_nil]

/-- Asking whether there is more takes nothing away. -/
theorem peeks (hpull : m.pull = .hasMore) :
    m.given = ChildStream.given m.answers ∧ m.stream.buffer <+: m.next.buffer := by
  have hpulled := hm.pulled
  rw [hpull] at hpulled
  rw [Moment.given, ChildStream.given, List.filterMap_append]
  generalize m.answer = answer at hpulled
  cases hpulled with
  | hasMore looks => exact ⟨List.append_nil _, looks.buffer_kept⟩

end Moment.Follows

end BucketFs.ChildStream
