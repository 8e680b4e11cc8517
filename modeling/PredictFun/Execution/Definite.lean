import PredictFun.Execution.Commands
import PredictFun.Lifecycle.Terminal

namespace PredictFun.Execution

open Base Storage Lifecycle Trading

namespace Session

variable {s s' : Session} {w w' : World Byte} {handed : List Bytes}

theorem Effect.traced (h : Effect s w handed (some s', w')) (ht : s.Traced) : s'.Traced := by
  cases h with
  | idle _ _ traced => exact traced ht
  | done _ _ keeps => exact keeps.traced ht
  | begun _ _ _ traced => exact traced ht
  | failed _ _ keeps => exact keeps.traced ht

end Session

theorem createOutcome_not_rejected {command : Command} {hash target : Bytes} {tracked : TrackedOrder}
    {outcome : MutationOutcome CreateOrderReceipt} (hc : command = .applyCreateOutcome target outcome)
    (h : tracked.state ≠ .rejected) : (command.update hash tracked).state ≠ .rejected := by
  subst hc
  rw [Command.update]
  split_ifs
  · cases ho : createOutcome outcome tracked with
    | error error => exact h
    | ok changed =>
      have ht := createOutcome_terminal ho
      intro hs
      rw [TrackedOrder.terminal, show changed.state = .rejected from hs] at ht
      cases ht
  · exact h

theorem rejected_by_error {t : OrderTracker} {target hash : Bytes} {result : Result (MutationOutcome CreateOrderReceipt)}
    (hbefore : ∀ order, t.find hash = some order → order.state ≠ .rejected)
    (hafter : ∃ order, (t.after (Session.submissionCommand target result)).find hash = some order ∧ order.state = .rejected) :
    target = hash ∧ ∃ error, result = .error error := by
  obtain ⟨order, ho, hr⟩ := hafter
  cases hf : t.find hash with
  | none =>
    obtain hn | ⟨amount, hc, -⟩ := OrderTracker.find_after_none (Session.submissionCommand target result) hf
    · rw [hn] at ho
      cases ho
    · cases result <;> cases hc
  | some tracked =>
    rw [OrderTracker.find_after_some _ hf] at ho
    cases ho
    cases result with
    | ok outcome => exact absurd hr (createOutcome_not_rejected rfl (hbefore tracked hf))
    | error error =>
      refine ⟨?_, error, rfl⟩
      by_contra hne
      rw [Session.submissionCommand, Command.update, if_neg hne] at hr
      exact hbefore tracked hf hr

namespace SubmitOperation

/-- The venue has not taken the order of the submission and will not: nothing was posted and nothing will be, or the
venue has refused it. -/
def Refused (op : SubmitOperation) : Prop :=
  (∃ error, op.stage = .turnedDown error) ∨
    ∃ m events, op.stage = .running m (Runs.run (Operation.step m) .initial events) ∧ Operation.Definite m events

theorem refused_of_due {op : SubmitOperation} (ht : op.Traced) {error : Error} (h : op.due = some (.error error)) :
    op.Refused := by
  unfold due at h
  split at h
  next m operation hr hs =>
    obtain ⟨events, rfl⟩ := ht m operation hs
    exact Or.inr ⟨m, events, hs, Operation.definite_of_error m events (List.mem_of_head? h)⟩
  next error' hr hs => exact Or.inl ⟨error', hs⟩
  · cases h

end SubmitOperation

namespace System

variable (client : Client) (path : Bytes)

theorem run_traced (inputs : List Input) (s : Session) (hs : (Runs.run (step client path) fresh inputs).session = some s) :
    s.Traced := by
  refine run_keeps (fun journal options w w' s ho => ?_) (fun s action w ht s' hr => ?_) inputs s hs
  · obtain ⟨p, -, rfl⟩ := open_ok ho
    exact fun op hm => by cases hm
  · have heffect := Session.react_effect client s fresh action w ht
    rcases he : s.react client action w with ⟨session', w'⟩
    rw [he] at hr heffect
    cases hr
    exact heffect.traced ht

theorem resume_refused {s s' : Session} {hash : Bytes} {index : ℕ} {w w' : World Byte} (ht : s.Traced)
    (hs : s.react client (.resume index) w = (some s', w'))
    (hbefore : ∀ order, s.tracker.find hash = some order → order.state ≠ .rejected)
    (hafter : ∃ order, s'.tracker.find hash = some order ∧ order.state = .rejected) :
    ∃ op, s.submissions[index]? = some op ∧ op.hash = hash ∧ op.Refused := by
  have hsame (h : s'.tracker = s.tracker) : False := by
    obtain ⟨order, ho, hr⟩ := hafter
    exact hbefore order (h ▸ ho) hr
  obtain he | ⟨op, result, hi, hd, he⟩ := Session.resume_cases client index s w
  · rw [he] at hs
    cases hs
    exact (hsame rfl).elim
  · rw [he] at hs
    obtain ⟨p, w₁, answer, hx, he⟩ | ⟨error, w₁, hx, he⟩ | ⟨w₁, hx, he⟩ :=
      Session.onResult_cases index op.hash result s w
    · rw [he] at hs
      cases hs
      have htracker : p.tracker = s.tracker.tracker.after (Session.submissionCommand op.hash result) := by
        rw [PersistentOrderTracker.execute_after hx]
      obtain ⟨hh, error, rfl⟩ := rejected_by_error hbefore (by rw [← htracker]; exact hafter)
      exact ⟨op, hi, hh, SubmitOperation.refused_of_due (ht op (List.mem_of_getElem? hi)) hd⟩
    · rw [he] at hs
      cases hs
      exact (hsame rfl).elim
    · rw [he] at hs
      cases hs

end System

def lostMutation : Mutation CreateOrderReceipt :=
  ⟨.bnbTestnet, ascii "/v1/orders", ascii "body", sampleHash, none, fun _ => fail .malformedJson "" "", fun _ => 0⟩

end PredictFun.Execution
