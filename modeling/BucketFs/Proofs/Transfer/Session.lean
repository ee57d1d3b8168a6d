import BucketFs.Proofs.Transfer.Sending

/-!
# The calls of a session

* `FirstFailed` and `AllSent` — how the sending of the parts of a plan ends.
* `sendAll_run` — a session is completed when all parts have been sent, and is given up at the first
  failure that arrives.
* `sendInParts_eq` — the calls around it that open a session and discard it.
-/

namespace BucketFs.Transfer

open PlannedPart

variable {σ : Type} {h : Handler σ} {send : PlannedPart → Program (Result String)}
  {plan order : List PlannedPart} {calls : List PartCall} {cause : FsError}

/-- Calls that send distinct parts of a plan. -/
structure SendsParts (h : Handler σ) (send : PlannedPart → Program (Result String))
    (plan : List PlannedPart) (calls : List PartCall) : Prop where
  made : ∀ c ∈ calls, ∃ t, c.events = (send c.part).events h t ∧ c.reply = ((send c.part).run h t).1
  distinct : (calls.map (·.part)).Nodup
  planned : ∀ c ∈ calls, c.part ∈ plan

/-- The first failure among some calls, in the order in which their answers arrive. -/
def FirstFailed (order : List PlannedPart) (calls : List PartCall) (cause : FsError) : Prop :=
  ∃ before c behind, order = before ++ c.part :: behind ∧ c ∈ calls ∧ c.reply = .error cause ∧
    ∀ q ∈ before, ∃ d ∈ calls, d.part = q ∧ ∃ etag, d.reply = .ok etag

/-- All parts of a plan were sent, and `list` has them in order with the tag that each call
returned. -/
structure AllSent (plan : List PlannedPart) (calls : List PartCall) (list : List FinishedPart) :
    Prop where
  sent : ∀ p ∈ plan, ∃ c ∈ calls, c.part = p ∧ ∃ etag, c.reply = .ok etag
  numbers : list.map (·.number) = List.range' 1 plan.length
  etags : ∀ f ∈ list, ∃ c ∈ calls, c.part.number = f.number ∧ c.reply = .ok f.etag

section Reached

variable {reply : PlannedPart → Result String} {ts : List Turn} {unsent : List PlannedPart}
  {book : SessionBook} {s : σ}

/-- A part that was reached before a failure has a call. -/
theorem Performed.exists_call (hp : Performed h send unsent [] reply ts book s calls)
    {before behind : List PlannedPart} {p : PlannedPart}
    (hsplit : ts.filterMap Turn.received? = before ++ p :: behind)
    (hbefore : ∀ q ∈ before, ∃ etag, heard reply calls q = .ok etag) :
    ∃ c ∈ calls, c.part = p ∧ c.reply = heard reply calls p := by
  rcases hp.reached before p behind hsplit hbefore with hnil | hmem
  · cases hnil
  · obtain ⟨c, hc, rfl⟩ := List.mem_map.1 hmem
    exact ⟨c, hc, rfl, (heard_of_mem hp.distinct hc).symm⟩

/-- The parts before one whose answer is noted have a call each, and so does that one. -/
theorem Performed.firstFailed (hp : Performed h send unsent [] reply ts book s calls)
    (hfails : FirstFailure (heard reply calls) (ts.filterMap Turn.received?) cause) :
    FirstFailed (ts.filterMap Turn.received?) calls cause := by
  obtain ⟨before, p, behind, hsplit, hcause, hbefore⟩ := hfails
  obtain ⟨c, hc, rfl, hreply⟩ := hp.exists_call hsplit hbefore
  refine ⟨before, c, behind, hsplit, hc, hreply.trans hcause, fun q hq => ?_⟩
  obtain ⟨etag, hetag⟩ := hbefore q hq
  obtain ⟨front, back, rfl⟩ := List.append_of_mem hq
  have hsplit' : ts.filterMap Turn.received? = front ++ q :: (back ++ c.part :: behind) := by
    rw [← List.cons_append, ← List.append_assoc]
    exact hsplit
  obtain ⟨d, hd, hdq, hdreply⟩ := hp.exists_call hsplit' fun q' hq' =>
    hbefore q' (List.mem_append_left _ hq')
  exact ⟨d, hd, hdq, etag, hdreply.trans hetag⟩

/-- When no answer is a failure, every part that arrives has a call. -/
theorem Performed.allAnswered (hp : Performed h send unsent [] reply ts book s calls)
    (hall : ∀ q ∈ ts.filterMap Turn.received?, ∃ etag, heard reply calls q = .ok etag)
    {p : PlannedPart} (harrives : p ∈ ts.filterMap Turn.received?) :
    ∃ c ∈ calls, c.part = p ∧ c.reply = heard reply calls p := by
  obtain ⟨before, behind, hsplit⟩ := List.append_of_mem harrives
  exact hp.exists_call hsplit fun q hq => hall q (hsplit ▸ List.mem_append_left _ hq)

end Reached

/-- **Sending the parts of a plan** ends with the first failure that arrives or with a tag for every
part. -/
theorem sendParts_run (h : Handler σ) (send : PlannedPart → Program (Result String)) {width : Nat}
    (hwidth : 0 < width) (schedule : Schedule) {handle : UploadHandle} {size : Nat}
    (hplan : Consecutive size 0 0 plan) {book : SessionBook}
    (hbook : book.InFlight handle size plan fun _ => none) (s : σ) :
    ∃ calls, SendsParts h send plan calls ∧
      (sendParts send width schedule (2 * plan.length) ⟨plan, []⟩ book).events h s =
        calls.flatMap (·.events) ∧
      ((∃ cause book',
          ((sendParts send width schedule (2 * plan.length) ⟨plan, []⟩ book).run h s).1 =
            (.error cause, book') ∧
          FirstFailed (arrivals width schedule plan) calls cause) ∨
        ∃ book' tag?,
          ((sendParts send width schedule (2 * plan.length) ⟨plan, []⟩ book).run h s).1 =
            (.ok (), book') ∧
          book'.InFlight handle size plan tag? ∧
          ∀ p ∈ plan, ∃ c ∈ calls, c.part = p ∧ ∃ etag, c.reply = .ok etag ∧
            tag? p = some etag) := by
  -- no answer is there yet, so any function stands for the answers
  let reply : PlannedPart → Result String := fun _ => .ok ""
  have hturns : sendParts send width schedule (2 * plan.length) ⟨plan, []⟩ book =
      perform send (turns width schedule (2 * plan.length) ⟨plan, []⟩) reply book :=
    sendParts_eq send width schedule _ ⟨plan, []⟩ reply book (fun _ _ h => nomatch h) hplan.nodup
  obtain ⟨calls, hp⟩ := perform_run h send hplan _ reply s (turns_plan hwidth schedule plan)
    (by rw [List.append_nil]; exact hplan.nodup) (by rw [List.append_nil]; exact fun _ => id) hbook
  have hperm := arrivals_perm hwidth schedule plan
  refine ⟨calls, ⟨hp.made, hp.distinct, hp.unsent_of_mem⟩, by rw [hturns, hp.events_eq], ?_⟩
  rw [hturns, hp.result]
  change (∃ cause book', noteAll (heard reply calls) (arrivals width schedule plan) book = _ ∧ _) ∨
    ∃ book' tag?, noteAll (heard reply calls) (arrivals width schedule plan) book = _ ∧ _
  rcases noteAll_cases (heard reply calls) hplan (fun p hp => hperm.mem_iff.1 hp) hbook with
    ⟨cause, book', hrun, hfails⟩ | ⟨book', tag?, hrun, hbook', hnoted, -⟩
  · exact .inl ⟨cause, book', hrun, hp.firstFailed hfails⟩
  · refine .inr ⟨book', tag?, hrun, hbook', fun p hplanned => ?_⟩
    have harrives := hperm.mem_iff.2 hplanned
    obtain ⟨etag, hetag, htag⟩ := hnoted p harrives
    obtain ⟨c, hc, hcp, hreply⟩ := hp.allAnswered
      (fun q hq => (hnoted q hq).imp fun _ hq => hq.1) harrives
    exact ⟨c, hc, hcp, etag, hreply.trans hetag, htag⟩

/-- The list of a book that has the tags of all calls. -/
theorem allSent_tagged {size : Nat} (hplan : Consecutive size 0 0 plan)
    {tag? : PlannedPart → Option String}
    (htags : ∀ p ∈ plan, ∃ c ∈ calls, c.part = p ∧ ∃ etag, c.reply = .ok etag ∧
      tag? p = some etag) :
    (∀ p ∈ plan, ∃ etag, tag? p = some etag) ∧ AllSent plan calls (tagged tag? plan) := by
  have hall : ∀ p ∈ plan, ∃ etag, tag? p = some etag := by
    intro p hp
    obtain ⟨c, -, -, etag, -, htag⟩ := htags p hp
    exact ⟨etag, htag⟩
  refine ⟨hall, fun p hp => ?_, ?_, fun f hf => ?_⟩
  · obtain ⟨c, hc, hcp, etag, hreply, -⟩ := htags p hp
    exact ⟨c, hc, hcp, etag, hreply⟩
  · rw [tagged_numbers hall, hplan.numbers]
  · obtain ⟨p, hp, hnumber, htag⟩ := mem_tagged.1 hf
    obtain ⟨c, hc, hcp, etag, hreply, htag'⟩ := htags p hp
    rw [htag] at htag'
    cases htag'
    exact ⟨c, hc, by rw [hcp, hnumber], hreply⟩

/-- **A session is completed** when every part has been sent, and given up at the first failure. -/
theorem sendAll_run (h : Handler σ) (send : PlannedPart → Program (Result String)) {width : Nat}
    (hwidth : 0 < width) (schedule : Schedule) (through : Access) (handle : UploadHandle)
    {size : Nat} (hplan : Consecutive size 0 0 plan) (s : σ) :
    ∃ calls, SendsParts h send plan calls ∧
      ((∃ cause book, FirstFailed (arrivals width schedule plan) calls cause ∧
          (sendAll through send width schedule (.start handle size plan)).events h s =
            calls.flatMap (·.events) ∧
          ((sendAll through send width schedule (.start handle size plan)).run h s).1 =
            (.error cause, book)) ∨
        ∃ (list : List FinishedPart) (reply : Result Unit) (book : SessionBook),
          AllSent plan calls list ∧
          (sendAll through send width schedule (.start handle size plan)).events h s =
            calls.flatMap (·.events) ++ [⟨.store through (.complete handle list), reply⟩] ∧
          ((sendAll through send width schedule (.start handle size plan)).run h s).1 =
            (reply, book)) := by
  obtain ⟨book₀, hstart, hbook₀⟩ := SessionBook.startSending_start handle size plan
  obtain ⟨calls, hcalls, hevents, hends⟩ := sendParts_run h send hwidth schedule hplan hbook₀ s
  refine ⟨calls, hcalls, ?_⟩
  rw [sendAll, hstart]
  dsimp only
  rw [hbook₀.parts_eq, Program.events_bind, Program.run_bind, hevents]
  rcases hends with ⟨cause, book, hrun, hfirst⟩ | ⟨book, tag?, hrun, hbook, htags⟩
  · refine .inl ⟨cause, book, hfirst, ?_, ?_⟩
    · rw [hrun]
      exact List.append_nil _
    · rw [hrun]
      rfl
  · obtain ⟨hall, hlist⟩ := allSent_tagged hplan htags
    obtain ⟨book', hfinish⟩ := hbook.finish
    rw [hrun]
    dsimp only
    rw [hbook.finishedParts hplan hall, hbook.handle_eq]
    generalize ((sendParts send width schedule (2 * plan.length) ⟨plan, []⟩ book₀).run h s).2 = t
    cases hreply : (h (.store through (.complete handle (tagged tag? plan))) t).1 with
    | error e =>
      refine .inr ⟨tagged tag? plan, .error e, book, hlist, ?_, ?_⟩
      · simp only [Program.events, hreply]
      · simp only [Program.run_call, hreply, Program.run_done]
    | ok _ =>
      refine .inr ⟨tagged tag? plan, .ok (), book', hlist, ?_, ?_⟩
      · simp only [Program.events, hreply, hfinish]
      · simp only [Program.run_call, hreply, hfinish, Program.run_done]

/-- **A transfer in parts** opens a session, and discards it if it is given up. -/
theorem sendInParts_eq (through : Access) (schedule : Schedule) (bucket key : String) (size : Nat)
    (acl : Option Acl) (options : TransferOptions)
    (send : UploadHandle → PlannedPart → Program (Result String)) {plan : List PlannedPart}
    (hplan : parts size options.chunkSize = .ok plan) :
    (sendInParts through schedule bucket key size acl options send).run =
      .call (.store through (.initiate bucket key acl)) fun
        | .error e => .done (.error e)
        | .ok handle =>
          (sendAll through (send handle) (max 1 options.maxConcurrency) schedule
            (SessionBook.start handle size plan)).bind fun
            | (.ok _, _) => .done (.ok ⟨size, plan.length⟩)
            | (.error cause, _) => .call (.store through (.abort handle)) fun _ =>
              .done (.error (.transferFailed key handle.uploadId cause)) := by
  simp only [sendInParts, hplan, Action.ofResult, Action.ask, Action.outcome, ExceptT.run_bind,
    ExceptT.run_mk, Program.bind_eq, Program.done_bind, Program.call_bind]
  refine congrArg (Program.call _) (funext fun reply => ?_)
  cases reply with
  | error e => rfl
  | ok handle =>
    simp only [ExceptT.run_lift, ← bind_pure_comp, Program.bind_eq, Program.bind_assoc,
      Program.pure_eq, Program.done_bind]
    refine congrArg (Program.bind _) (funext fun r => ?_)
    obtain ⟨result, book⟩ := r
    cases result <;> rfl

end BucketFs.Transfer
