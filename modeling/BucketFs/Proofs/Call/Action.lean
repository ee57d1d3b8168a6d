import BucketFs.Call.Program

/-!
# Actions step by step

What an action comes to whose first step is a result at hand or another action, and how an action
runs whose first step is known to succeed or to fail.
-/

namespace BucketFs.Action

variable {σ α β : Type}

theorem run_bind (a : Action α) (f : α → Action β) :
    (a >>= f).run = a.run.bind fun
      | .ok x => (f x).run
      | .error e => .done (.error e) := by
  rw [ExceptT.run_bind, Program.bind_eq]
  exact congrArg (Program.bind _) (funext fun r => by cases r <;> rfl)

@[simp] theorem ofResult_ok_bind (a : α) (f : α → Action β) : ofResult (.ok a) >>= f = f a := rfl

@[simp] theorem ofResult_error_bind (e : FsError) (f : α → Action β) :
    ofResult (.error e) >>= f = throw e := rfl

@[simp] theorem throw_bind (e : FsError) (f : α → Action β) :
    ((throw e : Action α) >>= f) = throw e := rfl

section Run

variable {h : Handler σ} {a : Action α} {f : α → Action β} {s t u : σ} {x : α} {y : β}
  {e : FsError}

@[simp] theorem run_pure (h : Handler σ) (x : α) (s : σ) :
    (pure x : Action α).run.run h s = (.ok x, s) := rfl

@[simp] theorem run_throw (h : Handler σ) (e : FsError) (s : σ) :
    (throw e : Action α).run.run h s = (.error e, s) := rfl

@[simp] theorem run_ofResult (h : Handler σ) (r : Result α) (s : σ) :
    (ofResult r).run.run h s = (r, s) := rfl

@[simp] theorem run_ask (h : Handler σ) (through : Access) (c : StoreCall) (s : σ) :
    (ask through c).run.run h s = h (.store through c) s := rfl

@[simp] theorem run_outcome (h : Handler σ) (a : Action α) (s : σ) :
    (outcome a).run.run h s = (.ok (a.run.run h s).1, (a.run.run h s).2) := by
  rw [outcome, ExceptT.run_mk, Program.run_bind, Program.run_done]

/-- An action goes on behind a step that succeeds. -/
theorem run_bind_ok (ha : a.run.run h s = (.ok x, t)) :
    (a >>= f).run.run h s = (f x).run.run h t := by
  rw [run_bind, Program.run_bind, ha]

/-- An action ends at a step that fails. -/
theorem run_bind_error (ha : a.run.run h s = (.error e, t)) :
    (a >>= f).run.run h s = (.error e, t) := by
  rw [run_bind, Program.run_bind, ha]
  rfl

/-- An action that succeeds does so step by step. -/
theorem run_bind_eq_ok (hrun : (a >>= f).run.run h s = (.ok y, u)) :
    ∃ x t, a.run.run h s = (.ok x, t) ∧ (f x).run.run h t = (.ok y, u) := by
  cases ha : a.run.run h s with
  | mk r t =>
    cases r with
    | error e =>
      rw [run_bind_error ha] at hrun
      cases hrun
    | ok x =>
      rw [run_bind_ok ha] at hrun
      exact ⟨x, t, rfl, hrun⟩

end Run

end BucketFs.Action
