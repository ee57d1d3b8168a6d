import BucketFs.Proofs.Call.Action
import BucketFs.Proofs.Call.Events

/-!
# Calls along a run

* `Program.Along` — every call of a run is allowed in the state in which it is made.
* `Program.Along.keeps` — what each allowed call keeps is kept by the whole run.
* `Program.states` — the states of a run; `Program.Along.states` — what is kept holds in each.
* `Action.Always` and `Action.Avoids` — actions whose runs make only allowed calls, and actions that
  never end in a given error; both are passed on from the steps of an action to the action.
* `Action.Behaves` — both for the run from one state.
-/

namespace BucketFs

variable {σ α β : Type}

namespace Program

/-- Whether every call of a run is allowed in the state in which it is made. -/
def Along (h : Handler σ) (allowed : Call → σ → Prop) : Program α → σ → Prop
  | .done _, _ => True
  | .call c next, s => allowed c s ∧ (next (h c s).1).Along h allowed (h c s).2

variable {h : Handler σ} {allowed : Call → σ → Prop}

theorem along_bind {p : Program α} {f : α → Program β} {s : σ} :
    (p.bind f).Along h allowed s ↔
      p.Along h allowed s ∧ (f (p.run h s).1).Along h allowed (p.run h s).2 := by
  induction p generalizing s with
  | done a => simp [Along]
  | call c next ih => simp only [call_bind, Along, run_call, ih, and_assoc]

theorem Along.of_forall (hall : ∀ c s, allowed c s) (p : Program α) (s : σ) :
    p.Along h allowed s := by
  induction p generalizing s with
  | done a => trivial
  | call c next ih => exact ⟨hall c s, ih _ _⟩

theorem Along.mono {wider : Call → σ → Prop} (hsub : ∀ c s, allowed c s → wider c s)
    {p : Program α} {s : σ} (hp : p.Along h allowed s) : p.Along h wider s := by
  induction p generalizing s with
  | done a => trivial
  | call c next ih => exact ⟨hsub c s hp.1, ih _ hp.2⟩

/-- The calls that a run made were allowed. -/
theorem Along.events {p : Program α} {s : σ} (hp : p.Along h allowed s) :
    ∀ e ∈ p.events h s, ∃ t, allowed e.1 t := by
  induction p generalizing s with
  | done a => exact fun e he => (List.not_mem_nil he).elim
  | call c next ih =>
    intro e he
    rcases List.mem_cons.1 he with rfl | he
    · exact ⟨s, hp.1⟩
    · exact ih _ hp.2 e he

/-- **What every allowed call keeps is kept by a run** that makes no others. -/
theorem Along.keeps (kept : σ → Prop) (hkeep : ∀ c s, allowed c s → kept s → kept (h c s).2)
    {p : Program α} {s : σ} (hp : p.Along h allowed s) (hs : kept s) : kept (p.run h s).2 := by
  induction p generalizing s with
  | done a => exact hs
  | call c next ih => exact ih _ hp.2 (hkeep c s hp.1 hs)

/-! ## The states of a run -/

/-- The states of a run: before each call, and at the end. -/
def states (h : Handler σ) : Program α → σ → List σ
  | .done _, s => [s]
  | .call c next, s => s :: (next (h c s).1).states h (h c s).2

/-- **What every allowed call keeps** holds in all states of a run. -/
theorem Along.states (kept : σ → Prop) (hkeep : ∀ c s, allowed c s → kept s → kept (h c s).2)
    {p : Program α} {s : σ} (hp : p.Along h allowed s) (hs : kept s) :
    ∀ t ∈ p.states h s, kept t := by
  induction p generalizing s with
  | done a =>
    intro t ht
    rw [List.mem_singleton.1 ht]
    exact hs
  | call c next ih =>
    intro t ht
    rcases List.mem_cons.1 ht with rfl | ht
    · exact hs
    · exact ih _ hp.2 (hkeep c s hp.1 hs) t ht

theorem self_mem_states (h : Handler σ) (p : Program α) (s : σ) : s ∈ p.states h s := by
  cases p with
  | done a => exact List.mem_singleton_self s
  | call c next => exact List.mem_cons_self

theorem run_mem_states (h : Handler σ) (p : Program α) (s : σ) :
    (p.run h s).2 ∈ p.states h s := by
  induction p generalizing s with
  | done a => exact List.mem_singleton_self s
  | call c next ih => exact List.mem_cons_of_mem _ (ih _ _)

/-- What a program passes through it passes through whatever comes behind it. -/
theorem mem_states_bind {p : Program α} {f : α → Program β} {s t : σ} (ht : t ∈ p.states h s) :
    t ∈ (p.bind f).states h s := by
  induction p generalizing s with
  | done a =>
    rw [List.mem_singleton.1 ht]
    exact self_mem_states h (f a) s
  | call c next ih =>
    rcases List.mem_cons.1 ht with rfl | ht
    · exact List.mem_cons_self
    · exact List.mem_cons_of_mem _ (ih _ ht)

theorem mem_states_behind {p : Program α} {f : α → Program β} {s t : σ}
    (ht : t ∈ (f (p.run h s).1).states h (p.run h s).2) : t ∈ (p.bind f).states h s := by
  induction p generalizing s with
  | done a => exact ht
  | call c next ih => exact List.mem_cons_of_mem _ (ih _ ht)

end Program

namespace Action

variable {h : Handler σ} {allowed : Call → σ → Prop} {a : Action α} {f : α → Action β}

theorem mem_states_behind {s t u : σ} {x : α} (ha : a.run.run h s = (.ok x, u))
    (ht : t ∈ (f x).run.states h u) : t ∈ (a >>= f).run.states h s := by
  rw [run_bind]
  refine Program.mem_states_behind ?_
  rw [ha]
  exact ht

/-! ## Allowed calls -/

theorem along_bind {s : σ} (ha : a.run.Along h allowed s)
    (hf : ∀ x t, a.run.run h s = (.ok x, t) → (f x).run.Along h allowed t) :
    (a >>= f).run.Along h allowed s := by
  rw [run_bind, Program.along_bind]
  refine ⟨ha, ?_⟩
  cases hrun : a.run.run h s with
  | mk r t =>
    cases r with
    | error e => trivial
    | ok x => exact hf x t hrun

/-- Whether all calls of an action are allowed, from whatever state it starts. -/
def Always (h : Handler σ) (allowed : Call → σ → Prop) (a : Action α) : Prop :=
  ∀ s, a.run.Along h allowed s

theorem Always.bind (ha : a.Always h allowed) (hf : ∀ x, (f x).Always h allowed) :
    (a >>= f).Always h allowed :=
  fun s => along_bind (ha s) fun x t _ => hf x t

theorem always_pure (x : α) : (pure x : Action α).Always h allowed := fun _ => trivial

theorem always_throw (e : FsError) : (throw e : Action α).Always h allowed := fun _ => trivial

theorem always_ofResult (r : Result α) : (ofResult r).Always h allowed := fun _ => trivial

theorem always_ask {through : Access} {c : StoreCall} (hc : ∀ s, allowed (.store through c) s) :
    (ask through c).Always h allowed := fun s => ⟨hc s, trivial⟩

theorem Always.outcome (ha : a.Always h allowed) : (outcome a).Always h allowed := by
  intro s
  rw [Action.outcome, ExceptT.run_mk, Program.along_bind]
  exact ⟨ha s, trivial⟩

/-! ## Errors that do not occur -/

/-- Whether no run of an action ends in the given error. -/
def Avoids (h : Handler σ) (e : FsError) (a : Action α) : Prop := ∀ s, (a.run.run h s).1 ≠ .error e

variable {e : FsError}

theorem bind_ne_error {s : σ} (ha : (a.run.run h s).1 ≠ .error e)
    (hf : ∀ x t, a.run.run h s = (.ok x, t) → ((f x).run.run h t).1 ≠ .error e) :
    ((a >>= f).run.run h s).1 ≠ .error e := by
  cases hrun : a.run.run h s with
  | mk r t =>
    cases r with
    | error e' =>
      rw [run_bind_error hrun]
      intro heq
      apply ha
      rw [hrun, Except.error.inj heq]
    | ok x =>
      rw [run_bind_ok hrun]
      exact hf x t hrun

theorem Avoids.bind (ha : a.Avoids h e) (hf : ∀ x, (f x).Avoids h e) : (a >>= f).Avoids h e :=
  fun s => bind_ne_error (ha s) fun x t _ => hf x t

theorem avoids_pure (x : α) : (pure x : Action α).Avoids h e := fun _ hrun => nomatch hrun

theorem avoids_throw {e' : FsError} (hne : e' ≠ e) : (throw e' : Action α).Avoids h e :=
  fun _ hrun => hne (Except.error.inj hrun)

theorem avoids_ofResult {r : Result α} (hr : r ≠ .error e) : (ofResult r).Avoids h e := fun _ => hr

theorem avoids_ask {through : Access} {c : StoreCall}
    (hc : ∀ s, (h (.store through c) s).1 ≠ .error e) : (ask through c).Avoids h e := hc

/-- A failure that is looked at is not the error in question either. -/
theorem Avoids.outcome_bind {f : Result α → Action β} (ha : a.Avoids h e)
    (hf : ∀ r, r ≠ .error e → (f r).Avoids h e) : (outcome a >>= f).Avoids h e := by
  intro s
  rw [run_bind_ok (run_outcome h a s)]
  exact hf _ (ha s) _

theorem avoids_lift (p : Program α) : Avoids h e (ExceptT.lift p) := by
  intro s hrun
  change ((p.bind fun a => .done (Except.ok a)).run h s).1 = .error e at hrun
  rw [Program.run_bind] at hrun
  cases hrun

theorem avoids_outcome (a : Action α) : (outcome a).Avoids h e := by
  intro s hrun
  rw [run_outcome] at hrun
  cases hrun

/-! ## Both for one run -/

/-- Whether a run makes only allowed calls and does not end in the given error. -/
structure Behaves (h : Handler σ) (allowed : Call → σ → Prop) (e : FsError) (a : Action α) (s : σ) :
    Prop where
  calls : a.run.Along h allowed s
  result : (a.run.run h s).1 ≠ .error e

theorem Behaves.bind {s : σ} (ha : a.Behaves h allowed e s)
    (hf : ∀ x t, a.run.run h s = (.ok x, t) → (f x).Behaves h allowed e t) :
    (a >>= f).Behaves h allowed e s := by
  constructor
  · exact along_bind ha.calls fun x t hrun => (hf x t hrun).calls
  · exact bind_ne_error ha.result fun x t hrun => (hf x t hrun).result

theorem behaves_pure (x : α) (s : σ) : (pure x : Action α).Behaves h allowed e s :=
  ⟨always_pure x s, avoids_pure x s⟩

theorem behaves_throw {e' : FsError} (hne : e' ≠ e) (s : σ) :
    (throw e' : Action α).Behaves h allowed e s :=
  ⟨always_throw e' s, avoids_throw hne s⟩

end Action

end BucketFs
