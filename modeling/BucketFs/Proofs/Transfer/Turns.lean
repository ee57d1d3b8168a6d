import BucketFs.Proofs.Transfer.Plan
import BucketFs.Transfer.Run
import Mathlib.Data.List.InsertIdx

/-!
# The turns of a pool

Which part takes the next step depends on the width of the pool and on the schedule, not on the
answers.  The turns can therefore be listed beforehand.

* `turns` — the turns of a pool.
* `turns_settle` — two steps for each part are enough: every part is sent once, and its answer is
  received once after that.
* `sendParts_eq` — sending the parts of a pool is performing its turns, up to the first failure.
-/

namespace BucketFs.Transfer

/-- A step of the sending. -/
inductive Turn where
  | send (part : PlannedPart)
  /-- The answer of a part that was sent is received. -/
  | receive (part : PlannedPart)

/-- The part whose answer is received. -/
def Turn.received? : Turn → Option PlannedPart
  | .send _ => none
  | .receive part => some part

/-- A part in the pool, without its answer. -/
structure Slot where
  part : PlannedPart
  isSent : Bool

/-- A pool without the answers. -/
structure Line where
  waiting : List PlannedPart
  slots : List Slot

namespace Line

/-- Takes waiting parts in, up to the width of the pool. -/
def refill (width : Nat) (l : Line) : Line :=
  let free := width - l.slots.length
  ⟨l.waiting.drop free, l.slots ++ (l.waiting.take free).map fun p => ⟨p, false⟩⟩

/-- The parts that have not been sent. -/
def unsent (l : Line) : List PlannedPart :=
  (l.slots.filter fun s => !s.isSent).map (·.part) ++ l.waiting

/-- The parts that have been sent and not received. -/
def sent (l : Line) : List PlannedPart := (l.slots.filter (·.isSent)).map (·.part)

end Line

/-- The turns of a pool, for at most `steps` steps. -/
def turns (width : Nat) (schedule : Schedule) : (steps : Nat) → Line → List Turn
  | 0, _ => []
  | steps + 1, line =>
    let line := line.refill width
    let place := schedule steps % line.slots.length
    match line.slots[place]? with
    | none => []
    | some ⟨part, false⟩ =>
      .send part ::
        turns width schedule steps { line with slots := line.slots.set place ⟨part, true⟩ }
    | some ⟨part, true⟩ =>
      .receive part :: turns width schedule steps { line with slots := line.slots.eraseIdx place }

/-- The order in which the parts of a plan are received. -/
def arrivals (width : Nat) (schedule : Schedule) (plan : List PlannedPart) : List PlannedPart :=
  (turns width schedule (2 * plan.length) ⟨plan, []⟩).filterMap Turn.received?

/-! ## Every part takes its turns -/

/-- Turns that send every unsent part once, and receive the answer of every part once it was
sent. -/
def Settle : (unsent sent : List PlannedPart) → List Turn → Prop
  | unsent, sent, [] => unsent = [] ∧ sent = []
  | unsent, sent, .send p :: rest => p ∈ unsent ∧ Settle (unsent.erase p) (p :: sent) rest
  | unsent, sent, .receive p :: rest => p ∈ sent ∧ Settle unsent (sent.erase p) rest

theorem Settle.perm {ts : List Turn} : ∀ {unsent sent unsent' sent' : List PlannedPart},
    Settle unsent sent ts → unsent.Perm unsent' → sent.Perm sent' → Settle unsent' sent' ts := by
  induction ts with
  | nil =>
    rintro unsent sent unsent' sent' ⟨rfl, rfl⟩ hu hs
    exact ⟨hu.nil_eq.symm, hs.nil_eq.symm⟩
  | cons t rest ih =>
    intro unsent sent unsent' sent' h hu hs
    cases t with
    | send p => exact ⟨hu.mem_iff.1 h.1, ih h.2 (hu.erase p) (hs.cons p)⟩
    | receive p => exact ⟨hs.mem_iff.1 h.1, ih h.2 hu (hs.erase p)⟩

/-- Every part is received once. -/
theorem Settle.received {ts : List Turn} : ∀ {unsent sent : List PlannedPart},
    Settle unsent sent ts → (ts.filterMap Turn.received?).Perm (unsent ++ sent) := by
  induction ts with
  | nil =>
    rintro unsent sent ⟨rfl, rfl⟩
    exact .nil
  | cons t rest ih =>
    intro unsent sent h
    cases t with
    | send p =>
      refine (ih h.2).trans ?_
      refine List.perm_middle.trans ?_
      exact (List.perm_cons_erase h.1).symm.append_right sent
    | receive p =>
      refine ((ih h.2).cons p).trans ?_
      refine List.perm_middle.symm.trans ?_
      exact (List.perm_cons_erase h.1).symm.append_left unsent

theorem split_at {α : Type} {l : List α} {i : Nat} {x : α} (h : l[i]? = some x) :
    ∃ a b, l = a ++ x :: b ∧ (∀ y, l.set i y = a ++ y :: b) ∧ l.eraseIdx i = a ++ b := by
  obtain ⟨hi, rfl⟩ := List.getElem?_eq_some_iff.1 h
  refine ⟨l.take i, l.drop (i + 1), ?_, fun y => ?_, ?_⟩
  · rw [List.getElem_cons_drop, List.take_append_drop]
  · exact List.set_eq_take_append_cons_drop.trans (if_pos hi)
  · exact List.eraseIdx_eq_take_drop_succ l i

section Line

variable {width : Nat} {line : Line}

theorem unsent_new (ps : List PlannedPart) :
    (((ps.map fun p => Slot.mk p false).filter fun s => !s.isSent).map (·.part)) = ps := by
  induction ps with
  | nil => rfl
  | cons p rest ih => rw [List.map_cons, List.filter_cons_of_pos rfl, List.map_cons, ih]

theorem sent_new (ps : List PlannedPart) :
    (ps.map fun p => Slot.mk p false).filter (·.isSent) = [] := by
  rw [List.filter_eq_nil_iff]
  intro s hs
  obtain ⟨p, -, rfl⟩ := List.mem_map.1 hs
  exact Bool.false_ne_true

theorem refill_unsent (width : Nat) (line : Line) : (line.refill width).unsent = line.unsent := by
  rw [Line.unsent, Line.refill, List.filter_append, List.map_append, unsent_new, List.append_assoc,
    List.take_append_drop, Line.unsent]

theorem refill_sent (width : Nat) (line : Line) : (line.refill width).sent = line.sent := by
  rw [Line.sent, Line.refill, List.filter_append, sent_new, List.append_nil, Line.sent]

/-- A pool that takes nothing in has nothing left. -/
theorem refill_empty (hwidth : 0 < width) (h : (line.refill width).slots = []) :
    line.unsent = [] ∧ line.sent = [] := by
  have hslots : line.slots = [] := (List.append_eq_nil_iff.1 h).1
  have htake : line.waiting.take (width - line.slots.length) = [] :=
    List.map_eq_nil_iff.1 (List.append_eq_nil_iff.1 h).2
  have hwaiting : line.waiting = [] := by
    rcases List.take_eq_nil_iff.1 htake with h0 | h0
    · rw [hslots, List.length_nil] at h0
      omega
    · exact h0
  rw [Line.unsent, Line.sent, hslots, hwaiting]
  exact ⟨rfl, rfl⟩

section Slots

variable (waiting : List PlannedPart) (a b : List Slot) (part : PlannedPart)

theorem unsent_send : (Line.unsent ⟨waiting, a ++ ⟨part, false⟩ :: b⟩).Perm
    (part :: Line.unsent ⟨waiting, a ++ ⟨part, true⟩ :: b⟩) := by
  simp only [Line.unsent, List.filter_append, List.filter_cons, Bool.not_false, Bool.not_true,
    if_true, Bool.false_eq_true, if_false, List.map_append, List.map_cons, List.append_assoc,
    List.cons_append]
  exact List.perm_middle

theorem sent_send : (Line.sent ⟨waiting, a ++ ⟨part, true⟩ :: b⟩).Perm
    (part :: Line.sent ⟨waiting, a ++ ⟨part, false⟩ :: b⟩) := by
  simp only [Line.sent, List.filter_append, List.filter_cons, if_true, Bool.false_eq_true, if_false,
    List.map_append, List.map_cons]
  exact List.perm_middle

theorem unsent_receive : Line.unsent ⟨waiting, a ++ ⟨part, true⟩ :: b⟩ =
    Line.unsent ⟨waiting, a ++ b⟩ := by
  simp only [Line.unsent, List.filter_append, List.filter_cons, Bool.not_true, Bool.false_eq_true,
    if_false]

theorem sent_receive : (Line.sent ⟨waiting, a ++ ⟨part, true⟩ :: b⟩).Perm
    (part :: Line.sent ⟨waiting, a ++ b⟩) := by
  simp only [Line.sent, List.filter_append, List.filter_cons, if_true, List.map_append,
    List.map_cons]
  exact List.perm_middle

end Slots

/-- **Every part takes its turns**, when there are two steps for each part that is not sent and one
for each that is. -/
theorem turns_settle (hwidth : 0 < width) (schedule : Schedule) :
    ∀ (steps : Nat) (line : Line), 2 * line.unsent.length + line.sent.length ≤ steps →
      Settle line.unsent line.sent (turns width schedule steps line) := by
  intro steps
  induction steps with
  | zero =>
    intro line h
    exact ⟨List.eq_nil_of_length_eq_zero (by omega), List.eq_nil_of_length_eq_zero (by omega)⟩
  | succ steps ih =>
    intro line h
    have hempty : (line.refill width).slots = [] → line.unsent = [] ∧ line.sent = [] :=
      refill_empty hwidth
    rw [← refill_unsent width, ← refill_sent width] at h hempty ⊢
    rw [turns]
    generalize line.refill width = l at h hempty ⊢
    obtain ⟨waiting, slots⟩ := l
    dsimp only at hempty ⊢
    split
    · rename_i hnone
      apply hempty
      rw [List.getElem?_eq_none_iff] at hnone
      rcases Nat.eq_zero_or_pos slots.length with h0 | hpos
      · exact List.eq_nil_of_length_eq_zero h0
      · exact absurd (Nat.mod_lt (schedule steps) hpos) (Nat.not_lt.2 hnone)
    · rename_i part hsome
      obtain ⟨a, b, rfl, hset, -⟩ := split_at hsome
      have hunsent := unsent_send waiting a b part
      have hsent := sent_send waiting a b part
      obtain ⟨hmem, herase⟩ := List.cons_perm_iff_perm_erase.1 hunsent.symm
      have hlength : 2 * (Line.unsent ⟨waiting, a ++ ⟨part, true⟩ :: b⟩).length +
          (Line.sent ⟨waiting, a ++ ⟨part, true⟩ :: b⟩).length ≤ steps := by
        rw [hunsent.length_eq, List.length_cons] at h
        rw [hsent.length_eq, List.length_cons]
        omega
      rw [hset]
      exact ⟨hmem, (ih _ hlength).perm herase hsent⟩
    · rename_i part hsome
      obtain ⟨a, b, rfl, -, herase⟩ := split_at hsome
      have hunsent := unsent_receive waiting a b part
      have hsent := sent_receive waiting a b part
      obtain ⟨hmem, hback⟩ := List.cons_perm_iff_perm_erase.1 hsent.symm
      have hlength : 2 * (Line.unsent ⟨waiting, a ++ b⟩).length +
          (Line.sent ⟨waiting, a ++ b⟩).length ≤ steps := by
        rw [hunsent, hsent.length_eq, List.length_cons] at h
        omega
      rw [hunsent, herase]
      exact ⟨hmem, (ih _ hlength).perm (.refl _) hback⟩

/-- A whole plan takes its turns. -/
theorem turns_plan (hwidth : 0 < width) (schedule : Schedule) (plan : List PlannedPart) :
    Settle plan [] (turns width schedule (2 * plan.length) ⟨plan, []⟩) :=
  turns_settle hwidth schedule _ ⟨plan, []⟩ (Nat.le_refl _)

theorem arrivals_perm (hwidth : 0 < width) (schedule : Schedule) (plan : List PlannedPart) :
    (arrivals width schedule plan).Perm plan := by
  have h := (turns_plan hwidth schedule plan).received
  rwa [List.append_nil] at h

end Line

/-! ## Performing turns -/

/-- The answers with that of one part set. -/
def setReply (reply : PlannedPart → Result String) (part : PlannedPart) (r : Result String) :
    PlannedPart → Result String :=
  fun p => if p = part then r else reply p

/-- Sends parts and notes their answers turn by turn, up to the first failure. -/
def perform (send : PlannedPart → Program (Result String)) :
    List Turn → (reply : PlannedPart → Result String) → SessionBook →
      Program (Result Unit × SessionBook)
  | [], _, book => .done (.ok (), book)
  | .send p :: rest, reply, book =>
    (send p).bind fun r => perform send rest (setReply reply p r) book
  | .receive p :: rest, reply, book =>
    match (reply p).bind (book.note p.number) with
    | .error e => .done (.error e, book)
    | .ok book => perform send rest reply book

/-- A place of the pool without the answer. -/
def Outstanding.slot : Outstanding → Slot
  | .unsent p => ⟨p, false⟩
  | .sent p _ => ⟨p, true⟩

/-- A pool without the answers. -/
def Pool.line (p : Pool) : Line := ⟨p.waiting, p.outstanding.map Outstanding.slot⟩

theorem line_refill (width : Nat) (p : Pool) : (p.refill width).line = p.line.refill width := by
  simp only [Pool.line, Pool.refill, Line.refill, List.length_map, List.map_append, List.map_map]
  rfl

/-- The parts of a pool. -/
def Pool.parts (p : Pool) : List PlannedPart :=
  p.outstanding.map (fun o => o.slot.part) ++ p.waiting

theorem parts_refill (width : Nat) (p : Pool) : (p.refill width).parts = p.parts := by
  simp only [Pool.parts, Pool.refill, List.map_append, List.map_map, List.append_assoc]
  rw [show ((fun o : Outstanding => o.slot.part) ∘ Outstanding.unsent) = id from rfl, List.map_id,
    List.take_append_drop]

/-- Whether `reply` tells the answers that a pool holds. -/
def Pool.Holds (p : Pool) (reply : PlannedPart → Result String) : Prop :=
  ∀ part r, Outstanding.sent part r ∈ p.outstanding → reply part = r

theorem Pool.Holds.refill {p : Pool} {reply : PlannedPart → Result String} (h : p.Holds reply)
    (width : Nat) : (p.refill width).Holds reply := by
  intro part r hmem
  rcases List.mem_append.1 hmem with hmem | hmem
  · exact h part r hmem
  · obtain ⟨q, -, hq⟩ := List.mem_map.1 hmem
    cases hq

section Places

variable {waiting : List PlannedPart} {a b : List Outstanding} {part : PlannedPart}
  {reply : PlannedPart → Result String}

theorem parts_middle (o : Outstanding) :
    (Pool.parts ⟨waiting, a ++ o :: b⟩).Perm (o.slot.part :: Pool.parts ⟨waiting, a ++ b⟩) := by
  simp only [Pool.parts, List.map_append, List.map_cons, List.append_assoc, List.cons_append]
  exact List.perm_middle

/-- No other place holds the part that is sent, so the other answers stay as they are. -/
theorem Pool.Holds.send (h : Pool.Holds ⟨waiting, a ++ .unsent part :: b⟩ reply)
    (hnodup : (Pool.parts ⟨waiting, a ++ .unsent part :: b⟩).Nodup) (r : Result String) :
    Pool.Holds ⟨waiting, a ++ .sent part r :: b⟩ (setReply reply part r) := by
  rw [(parts_middle _).nodup_iff, List.nodup_cons] at hnodup
  have hother : ∀ q r', Outstanding.sent q r' ∈ a ++ b → q ≠ part := by
    rintro q r' hmem rfl
    exact hnodup.1 (List.mem_append_left _ (List.mem_map.2 ⟨_, hmem, rfl⟩))
  intro q r' hmem
  rw [setReply]
  rcases List.mem_append.1 hmem with hmem | hmem
  · rw [if_neg (hother q r' (List.mem_append_left _ hmem))]
    exact h q r' (List.mem_append_left _ hmem)
  · rcases List.mem_cons.1 hmem with heq | hmem
    · cases heq
      exact if_pos rfl
    · rw [if_neg (hother q r' (List.mem_append_right _ hmem))]
      exact h q r' (List.mem_append_right _ (List.mem_cons_of_mem _ hmem))

theorem Pool.Holds.receive {o : Outstanding} (h : Pool.Holds ⟨waiting, a ++ o :: b⟩ reply) :
    Pool.Holds ⟨waiting, a ++ b⟩ reply := by
  intro q r hmem
  apply h q r
  rcases List.mem_append.1 hmem with hmem | hmem
  · exact List.mem_append_left _ hmem
  · exact List.mem_append_right _ (List.mem_cons_of_mem _ hmem)

end Places

/-- **Sending parts is performing their turns.** -/
theorem sendParts_eq (send : PlannedPart → Program (Result String)) (width : Nat)
    (schedule : Schedule) (steps : Nat) :
    ∀ (pool : Pool) (reply : PlannedPart → Result String) (book : SessionBook),
      pool.Holds reply → pool.parts.Nodup →
      sendParts send width schedule steps pool book =
        perform send (turns width schedule steps pool.line) reply book := by
  induction steps with
  | zero => intro pool reply book _ _; rfl
  | succ steps ih =>
    intro pool reply book hholds hnodup
    replace hholds := hholds.refill width
    rw [← parts_refill width] at hnodup
    rw [sendParts, turns, ← line_refill]
    generalize pool.refill width = p at hholds hnodup
    obtain ⟨waiting, outstanding⟩ := p
    dsimp only [Pool.line] at *
    rw [List.getElem?_map, List.length_map]
    generalize schedule steps % outstanding.length = place
    cases hsome : outstanding[place]? with
    | none => rfl
    | some o =>
      obtain ⟨a, b, rfl, hset, herase⟩ := split_at hsome
      cases o with
      | unsent part =>
        refine congrArg ((send part).bind ·) (funext fun r => ?_)
        rw [show (⟨part, true⟩ : Slot) = (Outstanding.sent part r).slot from rfl, ← List.map_set,
          hset]
        refine ih ⟨waiting, a ++ .sent part r :: b⟩ _ book (hholds.send hnodup r) ?_
        rw [(parts_middle _).nodup_iff] at hnodup ⊢
        exact hnodup
      | sent part r =>
        have hr : reply part = r := hholds part r (by simp)
        have hrest : (Pool.parts ⟨waiting, a ++ b⟩).Nodup := by
          rw [(parts_middle _).nodup_iff] at hnodup
          exact (List.nodup_cons.1 hnodup).2
        change (match r.bind (book.note part.number) with
          | .error e => _
          | .ok book => _) = perform send (.receive part :: _) reply book
        rw [perform, hr]
        cases r.bind (book.note part.number) with
        | error e => rfl
        | ok book' =>
          rw [List.eraseIdx_map, herase]
          exact ih ⟨waiting, a ++ b⟩ reply book' hholds.receive hrest

end BucketFs.Transfer
