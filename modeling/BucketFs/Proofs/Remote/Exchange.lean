import BucketFs.Proofs.Call.Events
import BucketFs.Proofs.Remote.Requests
import Mathlib.Algebra.Group.Nat.Defs
import Mathlib.Data.List.Forall2

/-!
# What goes over a transport

A transport can keep the requests that it carries and their answers.  Only what a client sends is
among them, so they show what a service sees of a run.

* `Transport.recorded` — the transport that keeps its exchanges.
* `replays_exchanges` — calls that become requests leave one exchange each, in order.
* `isGranted` — the answers by which a service grants a request; `Exchange.Made.granted` says that
  the call behind such an answer succeeds.
-/

namespace BucketFs.Remote

variable {τ : Type}

/-- A request that was sent for a call, and the answer of the service. -/
structure Exchange where
  call : StoreCall
  request : SignedRequest
  reply : Reply call

/-- The transport that also keeps what it carries, the latest last. -/
def Transport.recorded (transport : Transport τ) : Transport (List Exchange × τ) :=
  fun c signed s =>
    let (reply, t) := transport c signed s.2
    (reply, (s.1 ++ [⟨c, signed, reply⟩], t))

/-! ## Answers -/

/-- The limit of lengths as a service writes them: `2 ^ 63`. -/
def lengthLimit : Int := 9223372036854775808

/-- Whether a service grants a request: the answer is no failure, an upload has a name, a part has a
tag, and a length is a signed word. -/
def isGranted : (c : StoreCall) → Reply c → Bool
  | _, .error _ => false
  | .head _ _, .ok fields => fields.contentLength.all fun n => -lengthLimit ≤ n && n < lengthLimit
  | .initiate _ _ _, .ok id => id.any (· ≠ "")
  | .uploadPart _ _ _ _, .ok etag => etag.isSome
  | .copyPart _ _ _ _ _, .ok etag => etag.isSome
  | _, .ok _ => true

/-- What is granted is read without a failure. -/
theorem readReply_of_granted {c : StoreCall} {reply : Reply c} (h : isGranted c reply = true) :
    ∃ v, readReply c reply = .ok v := by
  cases reply with
  | error f => cases c <;> cases h
  | ok fields =>
    cases c
    case initiate bucket key acl =>
      cases fields with
      | none => cases h
      | some id => exact ⟨_, rfl⟩
    case uploadPart handle number range data =>
      cases fields with
      | none => cases h
      | some etag => exact ⟨_, rfl⟩
    case copyPart handle number range sourceBucket sourceKey =>
      cases fields with
      | none => cases h
      | some etag => exact ⟨_, rfl⟩
    all_goals exact ⟨_, rfl⟩

/-- A length that is granted is far from the end of the range of positions. -/
theorem readSize_of_granted {bucket key : String} {fields : HeadFields}
    (h : isGranted (.head bucket key) (.ok fields) = true) :
    readSize fields.contentLength < 2 ^ 63 := by
  change fields.contentLength.all (fun n => -lengthLimit ≤ n && n < lengthLimit) = true at h
  cases hlength : fields.contentLength with
  | none => decide
  | some n =>
    rw [hlength, Option.all_some, Bool.and_eq_true, decide_eq_true_eq, decide_eq_true_eq,
      lengthLimit] at h
    simp only [readSize, Option.getD_some]
    omega

/-! ## The exchanges of a run -/

/-- The exchange that a call makes: its request is the one that is sent, and its answer is read as
that of the call. -/
inductive Exchange.Made (client : Client) (through : Access) : Event → Exchange → Prop
  | intro (c : StoreCall) (signed : SignedRequest) (reply : Reply c)
      (sends : client.Sends c signed) :
      Made client through ⟨.store through c, readReply c reply⟩ ⟨c, signed, reply⟩

section Replay

variable {client : Client} {transport : Transport τ} {through : Access}
  {s s' : (List Exchange × τ) × LocalFile}

/-- A call that becomes a request leaves one exchange. -/
theorem handler_recorded {c : StoreCall} {signed : SignedRequest} (h : client.Sends c signed)
    (s : (List Exchange × τ) × LocalFile) :
    client.handler transport.recorded (.store through c) s =
      (readReply c (transport c signed s.1.2).1,
        ((s.1.1 ++ [⟨c, signed, (transport c signed s.1.2).1⟩], (transport c signed s.1.2).2),
          s.2)) := by
  simp [Client.handler, Client.answer, h.1, h.2, Transport.recorded]

/-- No call takes anything back that went over the transport. -/
theorem handler_grows (c : Call) (s : (List Exchange × τ) × LocalFile) :
    s.1.1 <+: (client.handler transport.recorded c s).2.1.1 := by
  cases c with
  | file c => exact List.prefix_rfl
  | store a c =>
    simp only [Client.handler, Client.answer]
    split
    · exact List.prefix_rfl
    · exact List.prefix_rfl
    · split
      · exact List.prefix_rfl
      · exact List.prefix_append _ _
      · exact List.prefix_append _ _

theorem replays_grows {events : List Event} :
    ∀ {s : (List Exchange × τ) × LocalFile},
      (client.handler transport.recorded).Replays s events s' → s.1.1 <+: s'.1.1 := by
  induction events with
  | nil =>
    rintro s rfl
    exact List.prefix_rfl
  | cons e rest ih =>
    rintro s ⟨-, hrest⟩
    exact (handler_grows e.1 s).trans (ih hrest)

/-- A call that becomes a request leaves one exchange, behind which the run goes on. -/
theorem replays_exchange {c : StoreCall} {signed : SignedRequest} {r : Result c.Value}
    {rest : List Event} (hsends : client.Sends c signed)
    (hreplay : (client.handler transport.recorded).Replays s (⟨.store through c, r⟩ :: rest) s') :
    ∃ x t, x ∈ s'.1.1 ∧ t.1.1 = s.1.1 ++ [x] ∧
      Exchange.Made client through ⟨.store through c, r⟩ x ∧
      (client.handler transport.recorded).Replays t rest s' := by
  obtain ⟨hreply, hrest⟩ := hreplay
  rw [handler_recorded hsends] at hreply hrest
  dsimp only at hreply
  subst hreply
  exact ⟨⟨c, signed, (transport c signed s.1.2).1⟩, _, (replays_grows hrest).subset (by simp), rfl,
    .intro c signed _ hsends, hrest⟩

/-- **Calls that become requests** leave one exchange each, in order. -/
theorem replays_exchanges {events : List Event}
    (hsent : ∀ e ∈ events, ∃ c signed, e.1 = .store through c ∧ client.Sends c signed) :
    ∀ {s : (List Exchange × τ) × LocalFile},
      (client.handler transport.recorded).Replays s events s' →
      ∃ xs, s'.1.1 = s.1.1 ++ xs ∧ List.Forall₂ (Exchange.Made client through) events xs := by
  induction events with
  | nil =>
    rintro s rfl
    exact ⟨[], by simp, .nil⟩
  | cons e rest ih =>
    intro s hreplay
    obtain ⟨c, signed, hcall, hsends⟩ := hsent e (by simp)
    obtain ⟨call, reply⟩ := e
    subst hcall
    obtain ⟨x, t, -, ht, hmade, hrest⟩ := replays_exchange hsends hreplay
    obtain ⟨xs, hlog, hall⟩ := ih (fun e he => hsent e (by simp [he])) hrest
    exact ⟨x :: xs, by simp [hlog, ht], .cons hmade hall⟩

end Replay

/-- **A call succeeds** if its request is granted. -/
theorem Exchange.Made.granted {client : Client} {through : Access} {c : StoreCall}
    {r : Result c.Value} {x : Exchange} (h : Made client through ⟨.store through c, r⟩ x)
    (hgranted : isGranted x.call x.reply = true) : ∃ v, r = .ok v := by
  cases h
  exact readReply_of_granted hgranted

/-- No call fails where every request is granted. -/
theorem ok_of_granted {client : Client} {through : Access} {events : List Event}
    {xs : List Exchange} (hmade : List.Forall₂ (Exchange.Made client through) events xs)
    (hgranted : ∀ x ∈ xs, isGranted x.call x.reply = true) {c : StoreCall} {r : Result c.Value}
    (hmem : ⟨.store through c, r⟩ ∈ events) : ∃ v, r = .ok v := by
  induction hmade with
  | nil => cases hmem
  | cons hx _ ih =>
    rcases List.mem_cons.1 hmem with heq | hmem
    · rw [← heq] at hx
      exact hx.granted (hgranted _ (by simp))
    · exact ih (fun x hx => hgranted x (by simp [hx])) hmem

end BucketFs.Remote
