import PredictFun.Base.Runs
import PredictFun.Lifecycle.Command

namespace PredictFun

open Base Lifecycle

def OrderRecord.TerminalEvidence (order : OrderRecord) : Prop :=
  match order.status.value with
  | .matched | .cancelled | .expired | .invalidated | .failed => True
  | .open => order.amountFilled.value ≠ 0 ∧ order.amount.value ≤ order.amountFilled.value
  | .unknown => False

def WalletEvent.TerminalEvidence (event : WalletEvent) : Prop :=
  match event.type.value with
  | .orderNotAccepted | .orderExpired | .orderCancelled | .orderTransactionFailed => True
  | .orderAccepted | .orderTransactionSuccess =>
    event.details.quantityFilled.value ≠ 0 ∧ event.details.quantity.value ≤ event.details.quantityFilled.value
  | .orderTransactionSubmitted | .unknown => False

namespace Lifecycle

theorem deriveFillState_terminal (tracked : TrackedOrder) (h : tracked.terminal = false) :
    (deriveFillState tracked).terminal = true ↔
      tracked.amountFilled.value ≠ 0 ∧ tracked.amount.value ≤ tracked.amountFilled.value := by
  rw [← compare_nonneg_iff, ne_eq, ← zero_iff]
  unfold deriveFillState
  split_ifs with hz hc
  · simp [h, hz]
  · simp [hz, hc, TrackedOrder.terminal, OrderLifecycleState.terminal]
  · simp [hc, TrackedOrder.terminal, OrderLifecycleState.terminal]

theorem restOrder_terminal (order : OrderRecord) (tracked : TrackedOrder) :
    (restOrder order tracked).terminal = true ↔ order.TerminalEvidence := by
  unfold restOrder OrderRecord.TerminalEvidence
  cases order.status.value with
  | «open» => exact deriveFillState_terminal _ rfl
  | unknown => simp [TrackedOrder.terminal, OrderLifecycleState.terminal]
  | _ => simp [TrackedOrder.terminal, OrderLifecycleState.terminal]

theorem walletEvent_terminal (event : WalletEvent) (tracked : TrackedOrder) :
    (walletEvent event tracked).terminal = true ↔ event.TerminalEvidence := by
  unfold walletEvent WalletEvent.TerminalEvidence
  cases event.type.value with
  | orderAccepted => exact deriveFillState_terminal _ rfl
  | orderTransactionSuccess => exact deriveFillState_terminal _ rfl
  | _ => simp [TrackedOrder.terminal, OrderLifecycleState.terminal]

@[simp] theorem quarantined_terminal (streamGeneration : BitVec 64) (tracked : TrackedOrder) :
    (quarantined streamGeneration tracked).terminal = tracked.terminal := by
  unfold quarantined
  split_ifs <;> rfl

theorem reconciled_terminal (streamGeneration : BitVec 64) (records : List OrderRecord) (tracked : TrackedOrder) :
    (reconciled streamGeneration records tracked).terminal = true ↔
      match records.getLast? with
      | none => tracked.terminal = true
      | some order => order.TerminalEvidence := by
  unfold reconciled
  cases records.getLast? with
  | none => simp
  | some order => exact restOrder_terminal order tracked

theorem createOutcome_terminal {outcome : MutationOutcome CreateOrderReceipt} {tracked changed : TrackedOrder}
    (h : createOutcome outcome tracked = .ok changed) : changed.terminal = false := by
  unfold createOutcome at h
  split at h
  · cases h
    rfl
  · split at h
    · cases h
    · split at h
      · cases h
      · cases h
        rfl

theorem createOutcome_error_iff (outcome : MutationOutcome CreateOrderReceipt) (tracked : TrackedOrder) :
    (createOutcome outcome tracked).toOption = none ↔
      outcome.disposition ≠ .ambiguous ∧
        ∀ receipt, outcome.receipt = some receipt → receipt.orderHash ≠ tracked.orderHash := by
  unfold createOutcome
  split
  next ha => simp [ha, Except.toOption]
  next ha =>
    split
    next hr => simp [ha, hr, fail, Except.toOption]
    next receipt hr =>
      split
      next hh => simpa [ha, hr, fail, Except.toOption] using hh
      next hh => simpa [ha, hr, Except.toOption] using hh

theorem submissionRejected_terminal {error : Error} {tracked changed : TrackedOrder}
    (h : submissionRejected error tracked = .ok (some changed)) : changed.terminal = true := by
  unfold submissionRejected at h
  split at h
  · cases h
  · split at h
    · cases h
      rfl
    · cases h

def TerminalIn (hash : Bytes) (t : OrderTracker) : Prop := ∃ tracked, t.find hash = some tracked ∧ tracked.terminal = true

/-- The venue's later news about orders that are already terminal is terminal too. -/
def Command.Respects (t : OrderTracker) : Command → Prop
  | .applyCreateOutcome hash outcome =>
    TerminalIn hash t →
      outcome.disposition ≠ .ambiguous ∧ ∀ receipt, outcome.receipt = some receipt → receipt.orderHash ≠ hash
  | .applyRestOrder order => TerminalIn order.order.hash t → order.TerminalEvidence
  | .applyWalletEvent event => TerminalIn event.orderHash t → event.TerminalEvidence
  | .markBookRemoved hash => ¬TerminalIn hash t
  | .reconcile _ snapshot =>
    ∀ hash, TerminalIn hash t → ∀ order, (recordsOf hash snapshot).getLast? = some order → order.TerminalEvidence
  | .beginSubmission _ _ | .markSubmissionRejected _ _ | .requireReconciliation _ => True

variable {t : OrderTracker}

theorem terminalIn_after_iff {hash : Bytes} {tracked : TrackedOrder} (command : Command)
    (h : t.find hash = some tracked) :
    TerminalIn hash (t.after command) ↔ (command.update hash tracked).terminal = true := by
  unfold TerminalIn
  rw [OrderTracker.find_after_some command h]
  simp

theorem update_terminal_of_respects {hash : Bytes} {tracked : TrackedOrder} {command : Command}
    (h : t.find hash = some tracked) (ht : tracked.terminal = true) (hr : command.Respects t) :
    (command.update hash tracked).terminal = true := by
  have hin : TerminalIn hash t := ⟨tracked, h, ht⟩
  cases command with
  | beginSubmission target amount => exact ht
  | applyCreateOutcome target outcome =>
    rw [Command.update]
    split_ifs with hh
    · subst hh
      have hn := (createOutcome_error_iff outcome tracked).mpr
        ⟨(hr hin).1, by rw [OrderTracker.find_hash h]; exact (hr hin).2⟩
      rw [hn]
      exact ht
    · exact ht
  | markSubmissionRejected target error =>
    rw [Command.update]
    split_ifs with hh
    · rcases hs : submissionRejected error tracked with failure | _ | changed
      · exact ht
      · exact ht
      · exact submissionRejected_terminal hs
    · exact ht
  | applyRestOrder order =>
    rw [Command.update]
    split_ifs with hh
    · subst hh
      exact (restOrder_terminal order tracked).mpr (hr hin)
    · exact ht
  | applyWalletEvent event =>
    rw [Command.update]
    split_ifs with hh
    · subst hh
      exact (walletEvent_terminal event tracked).mpr (hr hin)
    · exact ht
  | markBookRemoved target =>
    rw [Command.update]
    split_ifs with hh
    · subst hh
      exact absurd hin hr
    · exact ht
  | requireReconciliation streamGeneration => exact (quarantined_terminal streamGeneration tracked).trans ht
  | reconcile streamGeneration snapshot =>
    apply (reconciled_terminal streamGeneration (recordsOf hash snapshot) tracked).mpr
    cases hl : (recordsOf hash snapshot).getLast? with
    | none => exact ht
    | some order => exact hr hash hin order hl

theorem respects_of_update_terminal {command : Command}
    (h : ∀ hash tracked, t.find hash = some tracked → tracked.terminal = true →
      (command.update hash tracked).terminal = true) : command.Respects t := by
  cases command with
  | beginSubmission target amount => trivial
  | applyCreateOutcome target outcome =>
    rintro ⟨tracked, hf, ht⟩
    have hu := h target tracked hf ht
    rw [Command.update, if_pos rfl] at hu
    rw [← OrderTracker.find_hash hf]
    apply (createOutcome_error_iff outcome tracked).mp
    cases hc : createOutcome outcome tracked with
    | error error => rfl
    | ok changed =>
      rw [hc] at hu
      exact absurd (createOutcome_terminal hc) (by rw [show changed.terminal = true from hu]; decide)
  | markSubmissionRejected target error => trivial
  | applyRestOrder order =>
    rintro ⟨tracked, hf, ht⟩
    have hu := h _ tracked hf ht
    rw [Command.update, if_pos rfl] at hu
    exact (restOrder_terminal order tracked).mp hu
  | applyWalletEvent event =>
    rintro ⟨tracked, hf, ht⟩
    have hu := h _ tracked hf ht
    rw [Command.update, if_pos rfl] at hu
    exact (walletEvent_terminal event tracked).mp hu
  | markBookRemoved target =>
    rintro ⟨tracked, hf, ht⟩
    have hu := h _ tracked hf ht
    rw [Command.update, if_pos rfl] at hu
    cases hu
  | requireReconciliation streamGeneration => trivial
  | reconcile streamGeneration snapshot =>
    rintro hash ⟨tracked, hf, ht⟩ order hl
    have hu := (reconciled_terminal streamGeneration (recordsOf hash snapshot) tracked).mp (h hash tracked hf ht)
    rwa [hl] at hu

theorem terminal_step_iff (t : OrderTracker) (command : Command) :
    (∀ hash, TerminalIn hash t → TerminalIn hash (t.after command)) ↔ command.Respects t := by
  constructor
  · intro h
    apply respects_of_update_terminal
    intro hash tracked hf ht
    exact (terminalIn_after_iff command hf).mp (h hash ⟨tracked, hf, ht⟩)
  · rintro h hash ⟨tracked, hf, ht⟩
    exact (terminalIn_after_iff command hf).mpr (update_terminal_of_respects hf ht h)

/-- The private stream reports the fill before the create response arrives; the response reopens the order. -/
def lateAcknowledgement : List Command :=
  [.beginSubmission sampleHash tenShares,
    .applyWalletEvent (sampleEvent .orderTransactionSuccess tenShares tenShares),
    .applyCreateOutcome sampleHash (acknowledged sampleHash)]

theorem lateAcknowledgement_reopens :
    ((Runs.run OrderTracker.after .empty (lateAcknowledgement.take 2)).find sampleHash).map TrackedOrder.state =
        some .filled ∧
      ((Runs.run OrderTracker.after .empty lateAcknowledgement).find sampleHash).map TrackedOrder.state =
        some .accepted := by
  decide

end Lifecycle

end PredictFun
