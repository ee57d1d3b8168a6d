import BucketFs.Proofs.Call.Events
import BucketFs.Proofs.Transfer.Book
import BucketFs.Proofs.Transfer.Turns

/-!
# Sending the parts of a session

* `PartCall` — one part that was sent: its calls and its answer.
* `perform_run` — turns make the calls of distinct parts, and end as if the answers of all these
  calls were noted in the order of arrival.
* `noteAll_cases` — noting answers one after the other either notes them all or ends with the first
  that is a failure.
-/

namespace BucketFs.Transfer

open PlannedPart

variable {σ : Type}

/-- A part that was sent, with the calls this took and the answer. -/
structure PartCall where
  part : PlannedPart
  events : List Event
  reply : Result String

/-- The answers, with those of some calls set. -/
def heard (reply : PlannedPart → Result String) (calls : List PartCall) :
    PlannedPart → Result String :=
  calls.foldl (fun reply c => setReply reply c.part c.reply) reply

theorem heard_of_not_mem {p : PlannedPart} {calls : List PartCall} :
    ∀ {reply : PlannedPart → Result String}, p ∉ calls.map (·.part) →
      heard reply calls p = reply p := by
  induction calls with
  | nil => intro reply _; rfl
  | cons c rest ih =>
    intro reply h
    rw [List.map_cons, List.mem_cons, not_or] at h
    rw [heard, List.foldl_cons]
    exact (ih h.2).trans (if_neg h.1)

theorem heard_of_mem {c : PartCall} {calls : List PartCall}
    (hnodup : (calls.map (·.part)).Nodup) (hc : c ∈ calls) :
    ∀ {reply : PlannedPart → Result String}, heard reply calls c.part = c.reply := by
  induction calls with
  | nil => cases hc
  | cons d rest ih =>
    intro reply
    rw [List.map_cons, List.nodup_cons] at hnodup
    rw [heard, List.foldl_cons]
    rcases List.mem_cons.1 hc with rfl | hc
    · exact (heard_of_not_mem hnodup.1).trans (if_pos rfl)
    · exact ih hnodup.2 hc

/-! ## Noting answers -/

/-- Notes answers one after the other, up to the first failure. -/
def noteAll (reply : PlannedPart → Result String) :
    List PlannedPart → SessionBook → Result Unit × SessionBook
  | [], book => (.ok (), book)
  | p :: rest, book =>
    match (reply p).bind (book.note p.number) with
    | .error e => (.error e, book)
    | .ok book => noteAll reply rest book

/-- The first failure among answers in the order of their arrival. -/
def FirstFailure (reply : PlannedPart → Result String) (order : List PlannedPart)
    (cause : FsError) : Prop :=
  ∃ before p behind, order = before ++ p :: behind ∧ reply p = .error cause ∧
    ∀ q ∈ before, ∃ etag, reply q = .ok etag

section Noting

variable {handle : UploadHandle} {size : Nat} {plan order : List PlannedPart}

/-- **Noting answers** ends with the first failure, or with the tags of all parts. -/
theorem noteAll_cases (reply : PlannedPart → Result String) (hplan : Consecutive size 0 0 plan)
    (horder : ∀ p ∈ order, p ∈ plan) :
    ∀ {book : SessionBook} {tag? : PlannedPart → Option String},
      book.InFlight handle size plan tag? →
      (∃ cause book', noteAll reply order book = (.error cause, book') ∧
        FirstFailure reply order cause) ∨
      (∃ book' tag?', noteAll reply order book = (.ok (), book') ∧
        book'.InFlight handle size plan tag?' ∧
        (∀ p ∈ order, ∃ etag, reply p = .ok etag ∧ tag?' p = some etag) ∧
        ∀ p, p ∉ order → tag?' p = tag? p) := by
  induction order with
  | nil =>
    intro book tag? hbook
    exact .inr ⟨book, tag?, rfl, hbook, by simp, fun _ _ => rfl⟩
  | cons p rest ih =>
    intro book tag? hbook
    rw [noteAll]
    cases hp : reply p with
    | error cause => exact .inl ⟨cause, book, rfl, [], p, rest, rfl, hp, by simp⟩
    | ok etag =>
      obtain ⟨book₁, hnote, hbook₁⟩ := hbook.note hplan (horder p List.mem_cons_self) etag
      rw [Except.bind, hnote]
      dsimp only
      rcases ih (fun q hq => horder q (List.mem_cons_of_mem _ hq)) hbook₁ with
        ⟨cause, book', hrun, before, q, behind, hsplit, hq, hbefore⟩ |
        ⟨book', tag?', hrun, hbook', hnoted, hkept⟩
      · refine .inl ⟨cause, book', hrun, p :: before, q, behind, ?_, hq, ?_⟩
        · rw [hsplit, List.cons_append]
        · intro q' hq'
          rcases List.mem_cons.1 hq' with rfl | hq'
          · exact ⟨etag, hp⟩
          · exact hbefore q' hq'
      · refine .inr ⟨book', tag?', hrun, hbook', ?_, ?_⟩
        · intro q hq
          by_cases hrest : q ∈ rest
          · exact hnoted q hrest
          · obtain rfl : q = p := (List.mem_cons.1 hq).resolve_right hrest
            exact ⟨etag, hp, (hkept q hrest).trans (if_pos rfl)⟩
        · intro q hq
          rw [List.mem_cons, not_or] at hq
          exact (hkept q hq.2).trans (if_neg hq.1)

end Noting

/-! ## Performing turns under a handler -/

/-- What performing turns comes to. -/
structure Performed (h : Handler σ) (send : PlannedPart → Program (Result String))
    (unsent sent : List PlannedPart) (reply : PlannedPart → Result String) (ts : List Turn)
    (book : SessionBook) (s : σ) (calls : List PartCall) : Prop where
  events_eq : (perform send ts reply book).events h s = calls.flatMap (·.events)
  made : ∀ c ∈ calls, ∃ t, c.events = (send c.part).events h t ∧ c.reply = ((send c.part).run h t).1
  distinct : (calls.map (·.part)).Nodup
  unsent_of_mem : ∀ c ∈ calls, c.part ∈ unsent
  result : ((perform send ts reply book).run h s).1 =
    noteAll (heard reply calls) (ts.filterMap Turn.received?) book
  /-- Every part up to the first failure has been sent. -/
  reached : ∀ before p behind, ts.filterMap Turn.received? = before ++ p :: behind →
    (∀ q ∈ before, ∃ etag, heard reply calls q = .ok etag) → p ∈ sent ∨ p ∈ calls.map (·.part)

section Performing

variable {h : Handler σ} {send : PlannedPart → Program (Result String)}
  {unsent sent : List PlannedPart} {reply : PlannedPart → Result String} {rest : List Turn}
  {book : SessionBook} {s : σ} {calls : List PartCall} {p : PlannedPart}

theorem Performed.send_step (hp : p ∈ unsent) (hnew : p ∉ calls.map (·.part))
    (hrest : Performed h send (unsent.erase p) (p :: sent)
      (setReply reply p ((send p).run h s).1) rest book ((send p).run h s).2 calls) :
    Performed h send unsent sent reply (.send p :: rest) book s
      (⟨p, (send p).events h s, ((send p).run h s).1⟩ :: calls) := by
  constructor
  case events_eq => rw [perform, Program.events_bind, hrest.events_eq, List.flatMap_cons]
  case made =>
    intro c hc
    rcases List.mem_cons.1 hc with rfl | hc
    · exact ⟨s, rfl, rfl⟩
    · exact hrest.made c hc
  case distinct =>
    rw [List.map_cons, List.nodup_cons]
    exact ⟨hnew, hrest.distinct⟩
  case unsent_of_mem =>
    intro c hc
    rcases List.mem_cons.1 hc with rfl | hc
    · exact hp
    · exact List.mem_of_mem_erase (hrest.unsent_of_mem c hc)
  case result =>
    rw [perform, Program.run_bind]
    exact hrest.result
  case reached =>
    intro before q behind hsplit hbefore
    rw [List.map_cons, List.mem_cons]
    rcases hrest.reached before q behind hsplit hbefore with hq | hq
    · rcases List.mem_cons.1 hq with rfl | hq
      · exact .inr (.inl rfl)
      · exact .inl hq
    · exact .inr (.inr hq)

/-- A failure that is received ends the sending. -/
theorem Performed.failure_step {cause : FsError} (hp : p ∈ sent) (hr : reply p = .error cause) :
    Performed h send unsent sent reply (.receive p :: rest) book s [] := by
  have hperform : perform send (.receive p :: rest) reply book = .done (.error cause, book) := by
    rw [perform, hr]
    rfl
  refine ⟨?_, by simp, by simp, by simp, ?_, fun before q behind hsplit hbefore => ?_⟩
  · rw [hperform]
    rfl
  · rw [hperform, List.filterMap_cons, Turn.received?, heard, List.foldl_nil, noteAll, hr]
    rfl
  · rw [List.filterMap_cons, Turn.received?] at hsplit
    cases before with
    | nil =>
      cases hsplit
      exact .inl hp
    | cons q' before =>
      obtain ⟨rfl, -⟩ := List.cons.inj hsplit
      obtain ⟨etag, hetag⟩ := hbefore p List.mem_cons_self
      rw [heard, List.foldl_nil, hr] at hetag
      cases hetag

theorem Performed.receive_step {etag : String} {book' : SessionBook} (hp : p ∈ sent)
    (hnew : p ∉ calls.map (·.part)) (hr : reply p = .ok etag)
    (hnote : book.note p.number etag = .ok book')
    (hrest : Performed h send unsent (sent.erase p) reply rest book' s calls) :
    Performed h send unsent sent reply (.receive p :: rest) book s calls := by
  have hperform : perform send (.receive p :: rest) reply book = perform send rest reply book' := by
    rw [perform, hr, Except.bind, hnote]
  have hheard : heard reply calls p = .ok etag := (heard_of_not_mem hnew).trans hr
  refine ⟨?_, hrest.made, hrest.distinct, hrest.unsent_of_mem, ?_,
    fun before q behind hsplit hbefore => ?_⟩
  · rw [hperform, hrest.events_eq]
  · rw [hperform, hrest.result, List.filterMap_cons, Turn.received?, noteAll, hheard, Except.bind,
      hnote]
  · rw [List.filterMap_cons, Turn.received?] at hsplit
    cases before with
    | nil =>
      cases hsplit
      exact .inl hp
    | cons q' before =>
      rcases hrest.reached before q behind (List.cons.inj hsplit).2 fun q' hq' =>
        hbefore q' (List.mem_cons_of_mem _ hq') with hq | hq
      · exact .inl (List.mem_of_mem_erase hq)
      · exact .inr hq

/-- A part that is not among the unsent ones is not sent. -/
theorem Performed.not_mem_parts {ts : List Turn}
    (hp : Performed h send unsent sent reply ts book s calls) (hnot : p ∉ unsent) :
    p ∉ calls.map (·.part) := by
  intro hmem
  obtain ⟨c, hc, rfl⟩ := List.mem_map.1 hmem
  exact hnot (hp.unsent_of_mem c hc)

end Performing

/-- **Performing turns** makes the calls of distinct parts and notes their answers in the order of
arrival. -/
theorem perform_run (h : Handler σ) (send : PlannedPart → Program (Result String))
    {handle : UploadHandle} {size : Nat} {plan : List PlannedPart}
    (hplan : Consecutive size 0 0 plan) (ts : List Turn) :
    ∀ {unsent sent : List PlannedPart} (reply : PlannedPart → Result String) {book : SessionBook}
      {tag? : PlannedPart → Option String} (s : σ),
      Settle unsent sent ts → (unsent ++ sent).Nodup → (∀ p ∈ unsent ++ sent, p ∈ plan) →
      book.InFlight handle size plan tag? →
      ∃ calls, Performed h send unsent sent reply ts book s calls := by
  induction ts with
  | nil =>
    intro unsent sent reply book tag? s _ _ _ _
    exact ⟨[], rfl, by simp, by simp, by simp, rfl, by simp⟩
  | cons t rest ih =>
    intro unsent sent reply book tag? s hsettle hnodup hplanned hbook
    cases t with
    | send p =>
      obtain ⟨hp, hsettle⟩ := hsettle
      have hperm : (unsent.erase p ++ p :: sent).Perm (unsent ++ sent) :=
        List.perm_middle.trans ((List.perm_cons_erase hp).symm.append_right sent)
      have hnodup' := hperm.nodup_iff.2 hnodup
      obtain ⟨calls, hrest⟩ := ih (setReply reply p ((send p).run h s).1) ((send p).run h s).2
        hsettle hnodup' (fun q hq => hplanned q (hperm.mem_iff.1 hq)) hbook
      have hnew : p ∉ unsent.erase p := fun hmem =>
        (List.nodup_append.1 hnodup').2.2 p hmem p List.mem_cons_self rfl
      exact ⟨_, .send_step hp (hrest.not_mem_parts hnew) hrest⟩
    | receive p =>
      obtain ⟨hp, hsettle⟩ := hsettle
      have hperm : (p :: (unsent ++ sent.erase p)).Perm (unsent ++ sent) :=
        List.perm_middle.symm.trans ((List.perm_cons_erase hp).symm.append_left unsent)
      cases hr : reply p with
      | error cause => exact ⟨[], .failure_step hp hr⟩
      | ok etag =>
        obtain ⟨book', hnote, hbook'⟩ :=
          hbook.note hplan (hplanned p (List.mem_append_right _ hp)) etag
        obtain ⟨calls, hrest⟩ := ih reply s hsettle
          (List.nodup_cons.1 (hperm.nodup_iff.2 hnodup)).2
          (fun q hq => hplanned q (hperm.mem_iff.1 (List.mem_cons_of_mem _ hq))) hbook'
        have hnew : p ∉ unsent := fun hmem =>
          (List.nodup_append.1 hnodup).2.2 p hmem p hp rfl
        exact ⟨calls, .receive_step hp (hrest.not_mem_parts hnew) hr hnote hrest⟩

end BucketFs.Transfer
