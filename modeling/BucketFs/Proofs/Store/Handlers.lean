import BucketFs.Proofs.Call.Events
import BucketFs.Store.Faulty

/-!
# Stores that answer or fail

A handler may pass the calls that reach a store in memory on to it, and may make any of them fail.
What is proved of all such handlers holds over the store itself, over several stores of which chosen
calls fail, and over the stores of a session whose plans alter no answer.

* `Handler.Serves` — a handler that answers so for one store, perhaps beside others.
* `Handler.FailsApart` — a handler whose failures can be told from the answers of the store.
* `Store.several` — stores by number, of which chosen calls fail; `Store.several_serves` — each of
  them is answered for.
* `FaultPlan.OnlyFails` — a plan that makes calls fail and alters nothing;
  `Stores.runs_as_several` — over stores with such plans every program runs as over `Store.several`.
-/

namespace BucketFs

variable {σ α : Type}

/-- A handler that passes the calls which reach a store in memory on to it, or makes them fail
without effect.  `view` is that store, which no other call changes. -/
structure Handler.Serves (h : Handler σ) (reaches : Access → Prop) (view : σ → Store) : Prop where
  reached : ∀ through c s, reaches through →
    ((h (.store through c) s).1 = ((view s).answer c).1 ∧
      view (h (.store through c) s).2 = ((view s).answer c).2) ∨
    ((∃ e, (h (.store through c) s).1 = .error e) ∧ view (h (.store through c) s).2 = view s)
  apart : ∀ through c s, ¬ reaches through → view (h (.store through c) s).2 = view s
  file : ∀ c s, view (h (.file c) s).2 = view s

namespace Handler.Serves

variable {h : Handler σ} {reaches : Access → Prop} {view : σ → Store}
  (hserves : h.Serves reaches view)
include hserves

/-- A call that succeeds was passed on. -/
theorem passed {through : Access} (hreach : reaches through) {c : StoreCall} {s : σ} {v : c.Value}
    (hok : (h (.store through c) s).1 = .ok v) :
    ((view s).answer c).1 = .ok v ∧ view (h (.store through c) s).2 = ((view s).answer c).2 := by
  rcases hserves.reached through c s hreach with ⟨hreply, hview⟩ | ⟨⟨e, herror⟩, -⟩
  · exact ⟨hreply ▸ hok, hview⟩
  · rw [herror] at hok
    cases hok

/-- A call is passed on or changes nothing. -/
theorem view_cases (through : Access) (c : StoreCall) (s : σ) :
    (reaches through ∧ view (h (.store through c) s).2 = ((view s).answer c).2) ∨
      view (h (.store through c) s).2 = view s := by
  by_cases hreach : reaches through
  · rcases hserves.reached through c s hreach with ⟨-, hview⟩ | ⟨-, hview⟩
    · exact .inl ⟨hreach, hview⟩
    · exact .inr hview
  · exact .inr (hserves.apart through c s hreach)

/-- A call that changes nothing is answered by the store or fails. -/
theorem asked {through : Access} (hreach : reaches through) {c : StoreCall} {s : σ}
    (hkeep : ((view s).answer c).2 = view s) :
    view (h (.store through c) s).2 = view s ∧
      ((h (.store through c) s).1 = ((view s).answer c).1 ∨
        ∃ e, (h (.store through c) s).1 = .error e) := by
  rcases hserves.reached through c s hreach with ⟨hreply, hview⟩ | ⟨hfailed, hview⟩
  · exact ⟨hview.trans hkeep, .inl hreply⟩
  · exact ⟨hview, .inr hfailed⟩

end Handler.Serves

/-- Whether only the store in memory reports something as missing; a call that is made to fail does
so in another way. -/
def Handler.FailsApart (h : Handler σ) (reaches : Access → Prop) (view : σ → Store) : Prop :=
  ∀ (through : Access) (c : StoreCall) (t : σ) (e : FsError), reaches through →
    (h (.store through c) t).1 = .error e → e.isMissing = true → ((view t).answer c).1 = .error e

theorem Store.handler_serves : Store.handler.Serves (fun _ => True) Prod.fst :=
  ⟨fun _ _ _ _ => .inl ⟨rfl, rfl⟩, fun _ _ _ hnot => absurd trivial hnot, fun _ _ => rfl⟩

/-! ## Several stores -/

/-- Stores by number, and a file.  The store calls that `faults` names fail and change nothing. -/
def Store.several (faults : StoreId → StoreCall → Option FsError) :
    Handler ((StoreId → Store) × LocalFile)
  | .store through c, s =>
    match faults through.store c with
    | some e => (.error e, s)
    | none =>
      (((s.1 through.store).answer c).1,
        (fun i => if i = through.store then ((s.1 i).answer c).2 else s.1 i, s.2))
  | .file c, s => (s.2.answer c, s)

theorem Store.several_serves (faults : StoreId → StoreCall → Option FsError) (i : StoreId) :
    (Store.several faults).Serves (fun through => through.store = i) fun s => s.1 i := by
  refine ⟨fun through c s hreach => ?_, fun through c s hnot => ?_, fun _ _ => rfl⟩
  · subst hreach
    simp only [several]
    cases faults through.store c with
    | none => exact .inl ⟨rfl, if_pos rfl⟩
    | some e => exact .inr ⟨⟨e, rfl⟩, rfl⟩
  · simp only [several]
    cases faults through.store c with
    | none => exact if_neg (Ne.symm hnot)
    | some e => rfl

theorem Store.several_failsApart {faults : StoreId → StoreCall → Option FsError}
    (hfaults : ∀ i c e, faults i c = some e → e.isMissing = false) (i : StoreId) :
    (Store.several faults).FailsApart (fun through => through.store = i) fun s => s.1 i := by
  intro through c t e hreach hreply hmissing
  subst hreach
  simp only [Store.several] at hreply
  cases hfault : faults through.store c with
  | none =>
    rw [hfault] at hreply
    exact hreply
  | some e' =>
    rw [hfault] at hreply
    cases hreply
    rw [hfaults _ c e hfault] at hmissing
    cases hmissing

/-! ## The stores of a session -/

/-- Whether a plan makes calls fail and alters nothing else. -/
structure FaultPlan.OnlyFails (f : FaultPlan) : Prop where
  partEtags : f.partEtags = []
  sizes : f.sizes = []
  times : f.times = []
  pages : f.pages = []
  fileAtPart : f.fileAtPart = []

namespace FaultyStore

variable {f : FaultPlan} (hf : f.OnlyFails)
include hf

theorem alter_eq (c : StoreCall) (v : c.Value) : alter f c v = v := by
  cases c with
  | head bucket key =>
    rw [alter, hf.sizes, hf.times]
    rfl
  | uploadPart handle number range data =>
    rw [alter, hf.partEtags]
    rfl
  | copyPart handle number range sourceBucket sourceKey =>
    rw [alter, hf.partEtags]
    rfl
  | _ => rfl

theorem fileAfter_eq (c : StoreCall) (file : LocalFile) : fileAfter f c file = file := by
  cases c with
  | uploadPart handle number range data =>
    rw [fileAfter, hf.fileAtPart]
    rfl
  | _ => rfl

theorem scriptedPage?_eq (r : ListQuery) : scriptedPage? f r = none := by
  rw [scriptedPage?, hf.pages]
  rfl

end FaultyStore

/-- **A call to a faulty store** is logged; then it fails as planned, or the store behind answers
it. -/
theorem FaultyStore.answer_eq {s : FaultyStore} (hs : s.faults.OnlyFails) (c : StoreCall) :
    s.answer c =
      match faultOf? s.faults c with
      | some e => (.error e, { s with log := s.log ++ [c] })
      | none => ((s.inner.answer c).1,
          { s with inner := (s.inner.answer c).2, log := s.log ++ [c] }) := by
  have hpass : { s with log := s.log ++ [c] }.pass c = ((s.inner.answer c).1,
      { s with inner := (s.inner.answer c).2, log := s.log ++ [c] }) := by
    rw [pass, show alter s.faults c = id from funext (alter_eq hs c), Except.map_id]
    rfl
  unfold answer
  dsimp only
  cases faultOf? s.faults c with
  | some e => rfl
  | none =>
    cases c with
    | list r =>
      dsimp only
      rw [scriptedPage?_eq hs]
      exact hpass
    | _ => exact hpass

namespace Stores

/-- Whether no plan of a session alters an answer. -/
def OnlyFail (s : Stores) : Prop := ∀ f ∈ s.all, f.faults.OnlyFails

/-- The failures of a session: those of the plans, and that of a store that does not exist. -/
def faults (s : Stores) (i : StoreId) (c : StoreCall) : Option FsError :=
  match s.all[i]? with
  | some f => FaultyStore.faultOf? f.faults c
  | none => some noStore

/-- The store behind a plan of a session.  Any store stands for one that does not exist. -/
def behind (s : Stores) (i : StoreId) : Store := (s.all[i]?).elim (.new 0 .epoch) (·.inner)

/-- The stores behind the plans of a session, and its file. -/
def view (s : Stores) : (StoreId → Store) × LocalFile := (s.behind, s.file)

variable {s : Stores} {i : StoreId} {f f' : FaultyStore}

/-- A store that is replaced by one with the same plan fails as it did. -/
theorem faults_set (hf : s.all[i]? = some f) (hplan : f'.faults = f.faults) (file : LocalFile) :
    faults ⟨s.all.set i f', file⟩ = s.faults := by
  funext j c
  obtain ⟨hi, -⟩ := List.getElem?_eq_some_iff.1 hf
  rw [faults, faults]
  by_cases hj : i = j
  · subst hj
    rw [List.getElem?_set_self hi, hf]
    dsimp only
    rw [hplan]
  · rw [List.getElem?_set_ne hj]

theorem behind_set (hf : s.all[i]? = some f) (file : LocalFile) (j : StoreId) :
    behind ⟨s.all.set i f', file⟩ j = if j = i then f'.inner else s.behind j := by
  obtain ⟨hi, -⟩ := List.getElem?_eq_some_iff.1 hf
  rw [behind, behind]
  split
  · subst j
    rw [List.getElem?_set_self hi]
    rfl
  · rename_i hj
    rw [List.getElem?_set_ne (Ne.symm hj)]

/-- **Where no plan alters an answer** a call is answered as by several stores, and the plans
stay. -/
theorem handler_as_several (hs : s.OnlyFail) (c : Call) :
    (handler c s).1 = (Store.several s.faults c s.view).1 ∧
      (handler c s).2.view = (Store.several s.faults c s.view).2 ∧
      (handler c s).2.OnlyFail ∧ (handler c s).2.faults = s.faults := by
  cases c with
  | file c => exact ⟨rfl, rfl, hs, rfl⟩
  | store through c =>
    cases hf : s.all[through.store]? with
    | none =>
      have hfault : s.faults through.store c = some noStore := by rw [faults, hf]
      simp only [handler, hf, Store.several, hfault]
      exact ⟨trivial, trivial, hs, trivial⟩
    | some f =>
      have hplan : f.faults.OnlyFails := hs f (List.mem_of_getElem? hf)
      have hfault : s.faults through.store c = FaultyStore.faultOf? f.faults c := by
        rw [faults, hf]
      have hbehind : s.behind through.store = f.inner := by rw [behind, hf, Option.elim_some]
      have hsame : (f.answer c).2.faults = f.faults := by
        rw [FaultyStore.answer_eq hplan]
        split <;> rfl
      have hstep : handler (.store through c) s =
          ((f.answer c).1, ⟨s.all.set through.store (f.answer c).2, s.file⟩) := by
        simp only [handler, hf, FaultyStore.fileAfter_eq hplan]
      rw [hstep]
      refine ⟨?_, Prod.ext (funext fun j => ?_) ?_, ?_, faults_set hf hsame s.file⟩
      · simp only [FaultyStore.answer_eq hplan, Store.several, hfault, view, hbehind]
        cases FaultyStore.faultOf? f.faults c <;> rfl
      · simp only [view, behind_set hf, FaultyStore.answer_eq hplan, Store.several, hfault]
        by_cases hj : j = through.store
        · rw [if_pos hj, hj]
          cases FaultyStore.faultOf? f.faults c <;> simp [hbehind]
        · rw [if_neg hj]
          cases FaultyStore.faultOf? f.faults c <;> simp [hj]
      · simp only [Store.several, hfault]
        cases FaultyStore.faultOf? f.faults c <;> rfl
      · intro g hg
        rcases List.mem_or_eq_of_mem_set hg with hg | rfl
        · exact hs g hg
        · rw [hsame]
          exact hplan

/-- **A session whose plans only make calls fail** runs as several stores do of which these calls
fail: every program makes the same calls, gets the same answers and leaves the same stores. -/
theorem runs_as_several (p : Program α) (hs : s.OnlyFail) :
    p.events handler s = p.events (Store.several s.faults) s.view ∧
      (p.run handler s).1 = (p.run (Store.several s.faults) s.view).1 ∧
      (p.run handler s).2.view = (p.run (Store.several s.faults) s.view).2 := by
  -- the plans stay, so that the same calls fail to the end
  let Related : Stores → (StoreId → Store) × LocalFile → Prop :=
    fun t u => t.OnlyFail ∧ t.faults = s.faults ∧ t.view = u
  have hstep : ∀ c t u, Related t u → (handler c t).1 = (Store.several s.faults c u).1 ∧
      Related (handler c t).2 (Store.several s.faults c u).2 := by
    rintro c t u ⟨ht, hfaults, rfl⟩
    obtain ⟨hreply, hview, hkeep, hplans⟩ := handler_as_several ht c
    rw [hfaults] at hreply hview hplans
    exact ⟨hreply, hkeep, hplans, hview⟩
  obtain ⟨hevents, hvalue, -, -, hview⟩ := p.runs_alike hstep ⟨hs, rfl, rfl⟩
  exact ⟨hevents, hvalue, hview⟩

end Stores

end BucketFs
