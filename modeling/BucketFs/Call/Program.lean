import BucketFs.Call.LocalFile
import BucketFs.Call.Store
import BucketFs.Location.FsId

/-!
# Programs

An operation of the library is a program: it is done, or it issues a call and goes on with the
answer.  A handler answers calls from a state, so the same program runs over a store in memory, a
store that fails at chosen calls, or a remote service, and its calls can be recorded.

* `Program.run` runs a program under a handler.
* `Handler.recorded` keeps the calls of a run with their answers, in order.
-/

namespace BucketFs

/-- The number of a store. -/
abbrev StoreId := Nat

/-- The access of one filesystem to its store.  Several filesystems may reach one store, each by an
access of its own. -/
structure Access where
  owner : FsId
  store : StoreId
  deriving DecidableEq, Repr

/-- A call of a program. -/
inductive Call where
  /-- A call to a store through the access of a filesystem. -/
  | store (through : Access) (call : StoreCall)
  | file (call : FileCall)
  deriving DecidableEq, Repr

/-- The type of the answer to a call. -/
abbrev Call.Reply : Call → Type
  | .store _ c => Result c.Value
  | .file c => Result c.Value

/-- A computation that issues calls. -/
inductive Program (α : Type) where
  | done (value : α)
  | call (c : Call) (next : c.Reply → Program α)

namespace Program

/-- Goes on with the value of a program. -/
def bind {α β : Type} : Program α → (α → Program β) → Program β
  | .done a, f => f a
  | .call c next, f => .call c fun r => (next r).bind f

/-- Programs run one after the other. -/
instance : Monad Program where
  pure := .done
  bind := Program.bind

@[simp] theorem pure_eq {α : Type} (a : α) : (pure a : Program α) = .done a := rfl

@[simp] theorem bind_eq {α β : Type} (p : Program α) (f : α → Program β) :
    p >>= f = p.bind f := rfl

@[simp] theorem done_bind {α β : Type} (a : α) (f : α → Program β) : (done a).bind f = f a := rfl

@[simp] theorem call_bind {α β : Type} (c : Call) (next : c.Reply → Program α)
    (f : α → Program β) : (call c next).bind f = call c fun r => (next r).bind f := rfl

theorem bind_done {α : Type} (p : Program α) : p.bind done = p := by
  induction p with
  | done a => rfl
  | call c next ih => simp [ih]

theorem bind_assoc {α β γ : Type} (p : Program α) (f : α → Program β) (g : β → Program γ) :
    (p.bind f).bind g = p.bind fun a => (f a).bind g := by
  induction p with
  | done a => rfl
  | call c next ih => simp [ih]

/-- The order in which steps are joined does not matter. -/
instance : LawfulMonad Program :=
  LawfulMonad.mk' Program (fun p => bind_done p) (fun _ _ => rfl) bind_assoc

end Program

/-- An operation that may fail. -/
abbrev Action (α : Type) := ExceptT FsError Program α

namespace Action

/-- A result that needs no call. -/
def ofResult {α : Type} (r : Result α) : Action α := ExceptT.mk (.done r)

/-- A single call to a store. -/
def ask (through : Access) (c : StoreCall) : Action c.Value :=
  ExceptT.mk (.call (.store through c) .done)

/-- A single call about a local file. -/
def askFile (c : FileCall) : Action c.Value := ExceptT.mk (.call (.file c) .done)

/-- The outcome of an action, so that a failure can be looked at. -/
def outcome {α : Type} (a : Action α) : Action (Result α) :=
  ExceptT.mk (a.run.bind fun r => .done (.ok r))

end Action

/-- Answers calls from a state. -/
abbrev Handler (σ : Type) := (c : Call) → σ → c.Reply × σ

namespace Program

/-- The value of a program and the state after it. -/
def run {σ α : Type} (h : Handler σ) : Program α → σ → α × σ
  | .done a, s => (a, s)
  | .call c next, s => (next (h c s).1).run h (h c s).2

@[simp] theorem run_done {σ α : Type} (h : Handler σ) (a : α) (s : σ) :
    (done a).run h s = (a, s) := rfl

@[simp] theorem run_call {σ α : Type} (h : Handler σ) (c : Call) (next : c.Reply → Program α)
    (s : σ) : (call c next).run h s = (next (h c s).1).run h (h c s).2 := rfl

theorem run_bind {σ α β : Type} (h : Handler σ) (p : Program α) (f : α → Program β) (s : σ) :
    (p.bind f).run h s = (f (p.run h s).1).run h (p.run h s).2 := by
  induction p generalizing s with
  | done a => rfl
  | call c next ih => simp [ih]

end Program

/-- A call with its answer. -/
abbrev Event := (c : Call) × c.Reply

/-- The handler that also keeps the calls it answered, the latest last. -/
def Handler.recorded {σ : Type} (h : Handler σ) : Handler (List Event × σ) :=
  fun c s => ((h c s.2).1, (s.1 ++ [⟨c, (h c s.2).1⟩], (h c s.2).2))

end BucketFs
