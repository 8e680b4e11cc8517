import PredictFun.Lifecycle.Persistent
import PredictFun.Lifecycle.Terminal

namespace PredictFun.Lifecycle

open Base Storage

theorem restOrder_required (order : OrderRecord) (tracked : TrackedOrder) :
    (restOrder order tracked).reconciliationRequired = decide (order.status.value = .unknown) := by
  unfold restOrder
  cases order.status.value <;> rfl

theorem walletEvent_required (event : WalletEvent) (tracked : TrackedOrder) :
    (walletEvent event tracked).reconciliationRequired = decide (event.type.value = .unknown) := by
  unfold walletEvent
  cases event.type.value <;> rfl

theorem createOutcome_required {outcome : MutationOutcome CreateOrderReceipt} {tracked changed : TrackedOrder}
    (h : createOutcome outcome tracked = .ok changed) (hr : tracked.reconciliationRequired = true) :
    changed.reconciliationRequired = true := by
  unfold createOutcome at h
  split at h
  · cases h
    rfl
  · split at h
    · cases h
    · split at h
      · cases h
      · cases h
        exact hr

structure Quarantined (order : TrackedOrder) : Prop where
  nonterminal : order.terminal = false
  required : order.reconciliationRequired = true

variable {order : TrackedOrder}

theorem quarantined_of_nonterminal (streamGeneration : BitVec 64) (h : order.terminal = false) :
    Quarantined (quarantined streamGeneration order) := by
  refine ⟨by rwa [quarantined_terminal], ?_⟩
  rw [quarantined, if_neg (by simp [h])]

theorem reconciled_nil (streamGeneration : BitVec 64) (tracked : TrackedOrder) :
    reconciled streamGeneration [] tracked = quarantined streamGeneration tracked := rfl

namespace Command

def Concerns (hash : Bytes) : Command → Prop
  | .applyCreateOutcome target _ | .markSubmissionRejected target _ | .markBookRemoved target => target = hash
  | .applyRestOrder order => order.order.hash = hash
  | .applyWalletEvent event => event.orderHash = hash
  | .reconcile _ snapshot => recordsOf hash snapshot ≠ []
  | .beginSubmission _ _ | .requireReconciliation _ => False

def Observes (hash : Bytes) : Command → Prop
  | .applyRestOrder order => order.order.hash = hash
  | .reconcile _ snapshot => recordsOf hash snapshot ≠ []
  | _ => False

/-- A wallet event of a known type that leaves the order open takes the flag away. -/
def Lifts (hash : Bytes) : Command → Prop
  | .applyWalletEvent event => event.orderHash = hash ∧ event.type.value ≠ .unknown ∧ ¬event.TerminalEvidence
  | _ => False

variable {command : Command} {hash : Bytes} {order : TrackedOrder}

theorem update_of_not_concerns (order : TrackedOrder) (hc : ¬command.Concerns hash) :
    command.update hash order = order ∨ ∃ streamGeneration, command.update hash order = quarantined streamGeneration order := by
  cases command with
  | beginSubmission target amount => exact Or.inl rfl
  | applyCreateOutcome target outcome => exact Or.inl (if_neg hc)
  | markSubmissionRejected target error => exact Or.inl (if_neg hc)
  | applyRestOrder record => exact Or.inl (if_neg hc)
  | applyWalletEvent event => exact Or.inl (if_neg hc)
  | markBookRemoved target => exact Or.inl (if_neg hc)
  | requireReconciliation streamGeneration => exact Or.inr ⟨streamGeneration, rfl⟩
  | reconcile streamGeneration snapshot =>
    refine Or.inr ⟨streamGeneration, ?_⟩
    rw [update, not_not.mp hc, reconciled_nil]

theorem update_quarantined_of_not_concerns (h : Quarantined order) (hc : ¬command.Concerns hash) :
    Quarantined (command.update hash order) := by
  obtain he | ⟨streamGeneration, he⟩ := update_of_not_concerns order hc
  · rwa [he]
  · rw [he]
    exact quarantined_of_nonterminal streamGeneration h.nonterminal

theorem update_quarantined (h : Quarantined order) (ho : ¬command.Observes hash) (hl : ¬command.Lifts hash) :
    (command.update hash order).terminal = true ∨ Quarantined (command.update hash order) := by
  by_cases hc : command.Concerns hash
  · cases command with
    | beginSubmission target amount => exact hc.elim
    | applyCreateOutcome target outcome =>
      right
      change target = hash at hc
      rw [update, if_pos hc]
      cases hr : createOutcome outcome order with
      | error error => exact h
      | ok changed => exact ⟨createOutcome_terminal hr, createOutcome_required hr h.required⟩
    | markSubmissionRejected target error =>
      change target = hash at hc
      rw [update, if_pos hc]
      rcases hr : submissionRejected error order with failure | _ | changed
      · exact Or.inr h
      · exact Or.inr h
      · exact Or.inl (submissionRejected_terminal hr)
    | applyRestOrder record => exact absurd hc ho
    | applyWalletEvent event =>
      change event.orderHash = hash at hc
      rw [update, if_pos hc]
      by_cases ht : event.TerminalEvidence
      · exact Or.inl ((walletEvent_terminal event order).mpr ht)
      · have hu : event.type.value = .unknown := by
          by_contra hu
          exact hl ⟨hc, hu, ht⟩
        refine Or.inr ⟨?_, by simp [walletEvent_required, hu]⟩
        exact Bool.eq_false_iff.mpr (fun he => ht ((walletEvent_terminal event order).mp he))
    | markBookRemoved target =>
      right
      change target = hash at hc
      rw [update, if_pos hc]
      exact ⟨rfl, rfl⟩
    | requireReconciliation streamGeneration => exact hc.elim
    | reconcile streamGeneration snapshot => exact absurd hc ho
  · exact Or.inr (update_quarantined_of_not_concerns h hc)

end Command

theorem requireReconciliation_quarantined {streamGeneration : BitVec 64} {t : OrderTracker} {hash : Bytes}
    (h : (t.requireReconciliation streamGeneration).find hash = some order)
    (hn : order.terminal = false) : Quarantined order := by
  rw [OrderTracker.find_requireReconciliation] at h
  obtain ⟨before, -, rfl⟩ := Option.map_eq_some_iff.mp h
  rw [quarantined_terminal] at hn
  exact quarantined_of_nonterminal streamGeneration hn

theorem PersistentOrderTracker.open_quarantined {journal : OrderJournal} {w w' : World Byte} {p : PersistentOrderTracker}
    {hash : Bytes} (h : PersistentOrderTracker.open journal w = (.ok p, w'))
    (hf : p.find hash = some order) (hn : order.terminal = false) : Quarantined order := by
  have hok : (PersistentOrderTracker.open journal w).1 = .ok p := by rw [h]
  obtain ⟨_, w₁, -, hok⟩ := bind_ok_inversion hok
  obtain ⟨replay, w₂, -, hok⟩ := bind_ok_inversion hok
  obtain ⟨_, w₃, -, hok⟩ := bind_ok_inversion hok
  obtain ⟨t, w₄, hr, hok⟩ := bind_ok_inversion hok
  obtain ⟨_, w₅, -, hok⟩ := bind_ok_inversion hok
  cases hok
  cases hrestore : OrderTracker.restore replay.orders with
  | error error =>
    rw [recover, hrestore] at hr
    cases hr
  | ok restored =>
    rw [recover, hrestore] at hr
    cases hr
    exact requireReconciliation_quarantined hf hn

end PredictFun.Lifecycle
