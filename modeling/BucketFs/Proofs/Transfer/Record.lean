import BucketFs.Proofs.Transfer.Book
import Mathlib.Data.List.Induction

/-!
# A book as a record of its calls

A book is driven by calls that come in any order, some of which it refuses.  The calls and their
answers are its log.  The plan of the book is arbitrary: it need not be consecutive.

* `perform_cases` — everything that a call can do.
* `Records` — how a book stands to its log, which every call preserves.
* `book_records_calls` — phases are passed in order, refused calls leave no trace, and the parts are
  listed just when they cover the object and have all been noted, each with the tag noted last.
-/

namespace BucketFs

/-- The phases that one call leads from and to. -/
inductive SessionPhase.Leads : SessionPhase → SessionPhase → Prop where
  | sends : Leads .initiated .partsInFlight
  | completes : Leads .partsInFlight .completed
  | abortsUnsent : Leads .initiated .aborted
  | abortsSending : Leads .partsInFlight .aborted

/-- The phases that a session ends in. -/
def SessionPhase.IsFinal (p : SessionPhase) : Prop := p = .completed ∨ p = .aborted

/-- A call on the book of a session. -/
inductive BookCall where
  | startSending
  | note (number : Nat) (etag : String)
  | finishedParts
  | finish
  | giveUp

/-- The phase that a call is to move to, if it is to move to one. -/
def BookCall.target? : BookCall → Option SessionPhase
  | .startSending => some .partsInFlight
  | .finish => some .completed
  | .giveUp => some .aborted
  | .note _ _ | .finishedParts => none

/-- What a call returns when it succeeds. -/
abbrev BookCall.Value : BookCall → Type
  | .finishedParts => List FinishedPart
  | .startSending | .note _ _ | .finish | .giveUp => Unit

/-- A call with its answer. -/
abbrev BookEvent := (c : BookCall) × Result c.Value

namespace BookEvent

/-- The event of a part that was noted. -/
def noted (number : Nat) (etag : String) : BookEvent := ⟨.note number etag, .ok ()⟩

/-- The tag that an event notes for a part, if it notes one. -/
def tag? (number : Nat) : BookEvent → Option String
  | ⟨.note n etag, .ok _⟩ => if n = number then some etag else none
  | _ => none

/-- The tag that was noted last for a part. -/
def lastTag? (events : List BookEvent) (number : Nat) : Option String :=
  (events.filterMap (tag? number)).getLast?

variable {events : List BookEvent} {e : BookEvent} {number : Nat} {etag : String}

theorem tag?_eq_some_iff : e.tag? number = some etag ↔ e = noted number etag := by
  constructor
  · intro h
    unfold tag? at h
    split at h
    · obtain ⟨rfl, hetag⟩ := Option.ite_none_right_eq_some.1 h
      cases hetag
      rfl
    · cases h
  · rintro rfl
    exact if_pos rfl

theorem lastTag?_append_singleton :
    lastTag? (events ++ [e]) number = (e.tag? number).or (lastTag? events number) := by
  rw [lastTag?, List.filterMap_append, List.getLast?_append]
  cases htag : e.tag? number with
  | none => rw [List.filterMap_cons_none htag]; rfl
  | some etag => rw [List.filterMap_cons_some htag]; rfl

theorem exists_lastTag?_iff :
    (∃ etag, lastTag? events number = some etag) ↔ ∃ etag, noted number etag ∈ events := by
  rw [← Option.isSome_iff_exists, lastTag?, List.getLast?_isSome, Ne,
    List.eq_nil_iff_forall_not_mem, not_forall_not]
  refine exists_congr fun etag => ?_
  rw [List.mem_filterMap]
  constructor
  · rintro ⟨e, he, htag⟩
    rwa [← tag?_eq_some_iff.1 htag]
  · intro hmem
    exact ⟨_, hmem, tag?_eq_some_iff.2 rfl⟩

end BookEvent

open BookEvent PlannedPart

namespace SessionBook

/-- The answer of a call that changes the book, and the book after it; a refusal keeps it. -/
def replaced (s : SessionBook) : Result SessionBook → Result Unit × SessionBook
  | .ok s' => (.ok (), s')
  | .error e => (.error e, s)

/-- A call with its answer and the book after it. -/
def perform (s : SessionBook) : (c : BookCall) → Result c.Value × SessionBook
  | .startSending => s.replaced s.startSending
  | .note number etag => s.replaced (s.note number etag)
  | .finishedParts => (s.finishedParts, s)
  | .finish => s.replaced s.finish
  | .giveUp => s.replaced s.giveUp

/-- The book after some calls. -/
def after (s : SessionBook) (calls : List BookCall) : SessionBook :=
  calls.foldl (fun s c => (s.perform c).2) s

/-- Some calls with their answers. -/
def log : SessionBook → List BookCall → List BookEvent
  | _, [] => []
  | s, c :: calls => ⟨c, (s.perform c).1⟩ :: (s.perform c).2.log calls

variable {s : SessionBook} {c : BookCall} {calls : List BookCall} {number : Nat} {etag : String}

theorem after_append_singleton : s.after (calls ++ [c]) = ((s.after calls).perform c).2 := by
  rw [after, List.foldl_append]
  rfl

theorem log_append_singleton :
    s.log (calls ++ [c]) = s.log calls ++ [⟨c, ((s.after calls).perform c).1⟩] := by
  induction calls generalizing s with
  | nil => rfl
  | cons _ _ ih => exact congrArg _ ih

/-! ## What one call does -/

/-- What a call leaves of a book: the book as it was, one tag more, or the next phase. -/
inductive Performs (s : SessionBook) : BookEvent → SessionBook → Prop where
  | kept {e : BookEvent} (hkept : ∀ number, e.tag? number = none) : Performs s e s
  | noted {number : Nat} (etag : String) (hphase : s.phase = .partsInFlight) (hpos : 0 < number)
      (hplace : number ≤ s.etags.length) :
      Performs s (noted number etag) { s with etags := s.etags.set (number - 1) (some etag) }
  | moved {e : BookEvent} {target : SessionPhase} (hmoved : ∀ number, e.tag? number = none)
      (hleads : s.phase.Leads target) : Performs s e { s with phase := target }

theorem move_cases {sources : List SessionPhase} {target : SessionPhase}
    (hsources : s.phase ∈ sources ↔ s.phase.Leads target) :
    (s.phase.Leads target ∧
        s.replaced (s.move sources target) = (.ok (), { s with phase := target })) ∨
      (¬ s.phase.Leads target ∧ ∃ e, s.replaced (s.move sources target) = (.error e, s)) := by
  rw [move, ← hsources]
  split
  · rename_i hmem
    exact .inl ⟨hmem, rfl⟩
  · rename_i hmem
    exact .inr ⟨hmem, _, rfl⟩

theorem note_cases (s : SessionBook) (number : Nat) (etag : String) :
    ((s.phase = .partsInFlight ∧ 0 < number ∧ number ≤ s.etags.length) ∧
        s.replaced (s.note number etag) =
          (.ok (), { s with etags := s.etags.set (number - 1) (some etag) })) ∨
      (¬ (s.phase = .partsInFlight ∧ 0 < number ∧ number ≤ s.etags.length) ∧
        ∃ e, s.replaced (s.note number etag) = (.error e, s)) := by
  rw [note]
  split
  · rename_i hphase
    exact .inr ⟨fun h => hphase h.1, _, rfl⟩
  · rename_i hphase
    split
    · exact .inr ⟨by omega, _, rfl⟩
    · exact .inl ⟨⟨Decidable.not_not.1 hphase, by omega, by omega⟩, rfl⟩

theorem mem_sources_iff {p : SessionPhase} :
    (p ∈ [SessionPhase.initiated] ↔ p.Leads .partsInFlight) ∧
      (p ∈ [SessionPhase.partsInFlight] ↔ p.Leads .completed) ∧
      (p ∈ [SessionPhase.initiated, .partsInFlight] ↔ p.Leads .aborted) := by
  refine ⟨⟨fun h => ?_, fun h => ?_⟩, ⟨fun h => ?_, fun h => ?_⟩, fun h => ?_, fun h => ?_⟩
  · rw [List.mem_singleton.1 h]; exact .sends
  · cases h; exact List.mem_singleton_self _
  · rw [List.mem_singleton.1 h]; exact .completes
  · cases h; exact List.mem_singleton_self _
  · rcases List.mem_pair.1 h with rfl | rfl
    · exact .abortsUnsent
    · exact .abortsSending
  · cases h <;> simp

/-- **A call that is to move to a phase** is accepted just when the phase of the book
leads there. -/
theorem perform_target (s : SessionBook) {c : BookCall} {target : SessionPhase}
    (htarget : c.target? = some target) :
    (s.phase.Leads target ∧ ∃ value, s.perform c = (.ok value, { s with phase := target })) ∨
      (¬ s.phase.Leads target ∧ ∃ e, s.perform c = (.error e, s)) := by
  obtain ⟨hstart, hfinish, hgiveUp⟩ := @mem_sources_iff s.phase
  cases c with
  | note => cases htarget
  | finishedParts => cases htarget
  | startSending =>
    cases htarget
    exact (move_cases hstart).imp_left fun h => ⟨h.1, _, h.2⟩
  | finish =>
    cases htarget
    exact (move_cases hfinish).imp_left fun h => ⟨h.1, _, h.2⟩
  | giveUp =>
    cases htarget
    exact (move_cases hgiveUp).imp_left fun h => ⟨h.1, _, h.2⟩

theorem perform_cases (s : SessionBook) (c : BookCall) :
    s.Performs ⟨c, (s.perform c).1⟩ (s.perform c).2 := by
  cases htarget : c.target? with
  | some target =>
    have hnone : ∀ number (answer : Result c.Value), tag? number ⟨c, answer⟩ = none := by
      intro number answer
      cases c with
      | note => cases htarget
      | startSending | finishedParts | finish | giveUp => rfl
    obtain ⟨hleads, value, heq⟩ | ⟨-, e, heq⟩ := s.perform_target htarget
    · rw [heq]
      exact .moved (fun number => hnone number _) hleads
    · rw [heq]
      exact .kept fun number => hnone number _
  | none =>
    cases c with
    | startSending => cases htarget
    | finish => cases htarget
    | giveUp => cases htarget
    | finishedParts => exact .kept fun _ => rfl
    | note number etag =>
      obtain ⟨⟨hphase, hpos, hplace⟩, heq⟩ | ⟨-, e, heq⟩ := s.note_cases number etag
      · rw [perform, heq]
        exact .noted etag hphase hpos hplace
      · rw [perform, heq]
        exact .kept fun _ => rfl

/-- A call that fails leaves the book as it was. -/
theorem perform_refused {e : FsError} (h : (s.perform c).1 = .error e) : (s.perform c).2 = s := by
  have hreplaced : ∀ reply, (s.replaced reply).1 = .error e → (s.replaced reply).2 = s := by
    intro reply hreply
    cases reply with
    | ok s' => cases hreply
    | error _ => rfl
  cases c with
  | finishedParts => rfl
  | startSending | note | finish | giveUp => exact hreplaced _ h

theorem Performs.leads {e : BookEvent} {s' : SessionBook} (h : s.Performs e s') :
    s'.phase = s.phase ∨ s.phase.Leads s'.phase := by
  cases h with
  | kept | noted => exact .inl rfl
  | moved _ hleads => exact .inr hleads

theorem Performs.eq_of_final {e : BookEvent} {s' : SessionBook} (h : s.Performs e s')
    (hfinal : s.phase.IsFinal) : s' = s := by
  cases h with
  | kept => rfl
  | noted _ hphase => rcases hfinal with h | h <;> cases hphase.symm.trans h
  | moved _ hleads =>
    rcases hfinal with h | h <;> rw [h] at hleads <;> cases hleads

/-! ## What a whole run keeps -/

/-- A book of a plan that has the tags of its log. -/
structure Records (handle : UploadHandle) (size : Nat) (parts : List PlannedPart)
    (events : List BookEvent) (s : SessionBook) : Prop where
  handle_eq : s.handle = handle
  size_eq : s.size = size
  parts_eq : s.parts = parts
  etags_eq : s.etags = (List.range' 1 parts.length).map (lastTag? events)

variable {handle : UploadHandle} {size : Nat} {parts : List PlannedPart} {events : List BookEvent}

theorem records_start : Records handle size parts [] (start handle size parts) :=
  ⟨rfl, rfl, rfl, by
    rw [start, show lastTag? [] = fun _ => none from rfl, List.map_const', List.length_range']⟩

/-- An event that notes no tag keeps the tags of a log. -/
theorem lastTag?_kept {e : BookEvent} (hkept : ∀ number, e.tag? number = none) :
    lastTag? (events ++ [e]) = lastTag? events := by
  funext number
  rw [lastTag?_append_singleton, hkept, Option.none_or]

/-- Noting a tag sets it at the place of its part. -/
theorem lastTag?_noted {number : Nat} (hpos : 0 < number) (etag : String) (n : Nat) :
    ((List.range' 1 n).map (lastTag? events)).set (number - 1) (some etag) =
      (List.range' 1 n).map (lastTag? (events ++ [noted number etag])) := by
  refine List.ext_getElem (by simp) fun i hi hi' => ?_
  rw [List.getElem_set, List.getElem_map, List.getElem_map, List.getElem_range',
    lastTag?_append_singleton]
  by_cases hplace : number = 1 + 1 * i
  · rw [if_pos (by omega), ← hplace, tag?_eq_some_iff.2 rfl, Option.some_or]
  · rw [if_neg (by omega), show tag? (1 + 1 * i) (noted number etag) = none from if_neg hplace,
      Option.none_or]

/-- One call keeps the book and the log together. -/
theorem Records.performs {e : BookEvent} {s' : SessionBook}
    (h : Records handle size parts events s) (hperforms : s.Performs e s') :
    Records handle size parts (events ++ [e]) s' := by
  obtain ⟨hhandle, hsize, hparts, hetags⟩ := h
  cases hperforms with
  | kept hkept => exact ⟨hhandle, hsize, hparts, by rw [lastTag?_kept hkept, hetags]⟩
  | noted etag _ hpos _ =>
    exact ⟨hhandle, hsize, hparts, by rw [← lastTag?_noted hpos, ← hetags]⟩
  | moved hmoved _ => exact ⟨hhandle, hsize, hparts, by rw [lastTag?_kept hmoved, hetags]⟩

/-- Any calls keep the book and the log together. -/
theorem records_after (handle : UploadHandle) (size : Nat) (parts : List PlannedPart)
    (calls : List BookCall) :
    Records handle size parts ((start handle size parts).log calls)
      ((start handle size parts).after calls) := by
  induction calls using List.reverseRecOn with
  | nil => exact records_start
  | append_singleton calls c ih =>
    rw [log_append_singleton, after_append_singleton]
    exact ih.performs (perform_cases _ c)

/-- A book in a final phase is kept by any calls. -/
theorem after_final (hfinal : s.phase.IsFinal) (calls : List BookCall) : s.after calls = s := by
  induction calls with
  | nil => rfl
  | cons c calls ih =>
    rwa [after, List.foldl_cons, (s.perform_cases c).eq_of_final hfinal]

/-! ## The list of the parts -/

/-- The parts are listed in order, each with the tag noted last, and only when they are
consecutive. -/
theorem Records.finishedParts_iff (h : Records handle size parts events s)
    {list : List FinishedPart} :
    s.finishedParts = .ok list ↔
      Consecutive size 0 0 parts ∧ list.map (·.number) = List.range' 1 parts.length ∧
        list.map (fun f => some f.etag) = (List.range' 1 parts.length).map (lastTag? events) := by
  have hlength : parts.length = s.etags.length := by
    rw [h.etags_eq, List.length_map, List.length_range']
  have hparts : (parts.zip s.etags).map (·.1) = parts := List.map_fst_zip (Nat.le_of_eq hlength)
  have hnumbers : (parts.zip s.etags).map (·.1.number) = parts.map (·.number) := by
    rw [← congrArg (List.map PlannedPart.number) hparts, List.map_map]
    rfl
  rw [finishedParts, h.size_eq, h.parts_eq, finishFrom_eq_ok_iff, hparts, hnumbers,
    List.map_snd_zip (Nat.le_of_eq hlength.symm), h.etags_eq]
  refine and_congr_right fun hcovers => ?_
  rw [hcovers.numbers]

theorem Records.listable_iff (h : Records handle size parts events s) :
    (∃ list, s.finishedParts = .ok list) ↔
      Consecutive size 0 0 parts ∧
        ∀ number, 0 < number → number ≤ parts.length → ∃ etag, noted number etag ∈ events := by
  constructor
  · rintro ⟨list, hlist⟩
    obtain ⟨hcovers, -, htags⟩ := h.finishedParts_iff.1 hlist
    refine ⟨hcovers, fun number hpos hplanned => ?_⟩
    have hmem : lastTag? events number ∈ list.map fun f => some f.etag := by
      rw [htags]
      exact List.mem_map_of_mem (List.mem_range'_1.2 ⟨hpos, by omega⟩)
    obtain ⟨f, -, hetag⟩ := List.mem_map.1 hmem
    exact exists_lastTag?_iff.1 ⟨f.etag, hetag.symm⟩
  · rintro ⟨hcovers, hnoted⟩
    refine ⟨(List.range' 1 parts.length).map fun number =>
      ⟨number, (lastTag? events number).getD ""⟩, h.finishedParts_iff.2 ⟨hcovers, ?_, ?_⟩⟩
    · rw [List.map_map]
      exact List.map_id' _
    · rw [List.map_map]
      refine List.map_congr_left fun number hnumber => ?_
      rw [List.mem_range'_1] at hnumber
      obtain ⟨etag, hetag⟩ := exists_lastTag?_iff.2 (hnoted number hnumber.1 (by omega))
      simp [hetag]

/-- What a book says of the calls on it so far. -/
structure Faithful (size : Nat) (parts : List PlannedPart) (events : List BookEvent)
    (s : SessionBook) : Prop where
  /-- No call leads anywhere else. -/
  leads : ∀ c, (s.perform c).2.phase = s.phase ∨ s.phase.Leads (s.perform c).2.phase
  moves : ∀ c target, c.target? = some target →
    (s.phase.Leads target ∧ ∃ value, s.perform c = (.ok value, { s with phase := target })) ∨
      (¬ s.phase.Leads target ∧ ∃ e, s.perform c = (.error e, s))
  final : s.phase.IsFinal → ∀ later, s.after later = s
  refused : ∀ c e, (s.perform c).1 = .error e → (s.perform c).2 = s
  listing : (s.perform .finishedParts).2 = s
  noting : ∀ number etag, (s.perform (.note number etag)).1 = .ok () ↔
    s.phase = .partsInFlight ∧ 0 < number ∧ number ≤ parts.length
  /-- Every part of a plan that covers the object has been noted. -/
  listable : (∃ list, (s.perform .finishedParts).1 = .ok list) ↔
    Consecutive size 0 0 parts ∧
      ∀ number, 0 < number → number ≤ parts.length → ∃ etag, noted number etag ∈ events
  listed : ∀ list, (s.perform .finishedParts).1 = .ok list →
    list.map (·.number) = List.range' 1 parts.length ∧
      list.map (fun f => some f.etag) = (List.range' 1 parts.length).map (lastTag? events)

theorem Records.noting_iff (h : Records handle size parts events s) (number : Nat) (etag : String) :
    (s.perform (.note number etag)).1 = .ok () ↔
      s.phase = .partsInFlight ∧ 0 < number ∧ number ≤ parts.length := by
  have hplaces : s.etags.length = parts.length := by
    rw [h.etags_eq, List.length_map, List.length_range']
  rw [← hplaces, perform]
  obtain ⟨haccepted, heq⟩ | ⟨hrefused, e, heq⟩ := s.note_cases number etag
  · exact iff_of_true (by rw [heq]) haccepted
  · exact iff_of_false (by rw [heq]; exact fun h => by cases h) hrefused

/-- **A book records the calls on it**, whatever its plan is and in whatever order they come, those
that it refuses included. -/
theorem book_records_calls (handle : UploadHandle) (size : Nat) (parts : List PlannedPart) :
    (start handle size parts).phase = .initiated ∧
      ∀ calls, Faithful size parts ((start handle size parts).log calls)
        ((start handle size parts).after calls) := by
  refine ⟨rfl, fun calls => ?_⟩
  have hrecords := records_after handle size parts calls
  exact {
    leads := fun c => (perform_cases _ c).leads
    moves := fun c target htarget => perform_target _ htarget
    final := after_final
    refused := fun c e => perform_refused
    listing := rfl
    noting := hrecords.noting_iff
    listable := hrecords.listable_iff
    listed := fun list hlist => (hrecords.finishedParts_iff.1 hlist).2 }

/-- A part that is noted twice is listed with its second tag, and a part beyond the plan is
refused. -/
example :
    let plan := [⟨1, 0, 4⟩, ⟨2, 4, 6⟩]
    let calls := [.startSending, .note 1 "a", .note 2 "b", .note 3 "c", .note 1 "d"]
    ((start ⟨"b", "k", "u"⟩ 6 plan).after calls).finishedParts = .ok [⟨1, "d"⟩, ⟨2, "b"⟩] := by
  decide

end SessionBook

end BucketFs
