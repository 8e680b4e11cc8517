import PredictFun.Lifecycle.Tracker

namespace PredictFun.Lifecycle

inductive Command
  | beginSubmission (hash : Bytes) (amount : ExactDecimal)
  | applyCreateOutcome (hash : Bytes) (outcome : MutationOutcome CreateOrderReceipt)
  | markSubmissionRejected (hash : Bytes) (error : Error)
  | applyRestOrder (order : OrderRecord)
  | applyWalletEvent (event : WalletEvent)
  | markBookRemoved (hash : Bytes)
  | requireReconciliation (streamGeneration : BitVec 64)
  | reconcile (streamGeneration : BitVec 64) (completeOrderSnapshot : List OrderRecord)

namespace OrderTracker

def perform : Command → OrderTracker → Result OrderTracker
  | .beginSubmission hash amount, t => (t.beginSubmission hash amount).map Prod.snd
  | .applyCreateOutcome hash outcome, t => t.applyCreateOutcome hash outcome
  | .markSubmissionRejected hash error, t => (t.markSubmissionRejected hash error).map Prod.snd
  | .applyRestOrder order, t => t.applyRestOrder order
  | .applyWalletEvent event, t => t.applyWalletEvent event
  | .markBookRemoved hash, t => t.markBookRemoved hash
  | .requireReconciliation streamGeneration, t => .ok (t.requireReconciliation streamGeneration)
  | .reconcile streamGeneration snapshot, t => .ok (t.reconcile streamGeneration snapshot).2

-- every operation reports its error before it changes anything
def after (t : OrderTracker) (command : Command) : OrderTracker :=
  match t.perform command with
  | .ok next => next
  | .error _ => t

end OrderTracker

def Command.update (command : Command) (hash : Bytes) (tracked : TrackedOrder) : TrackedOrder :=
  match command with
  | .beginSubmission _ _ => tracked
  | .applyCreateOutcome target outcome =>
    if target = hash then (createOutcome outcome tracked).toOption.getD tracked else tracked
  | .markSubmissionRejected target error =>
    if target = hash then (submissionRejected error tracked).toOption.join.getD tracked else tracked
  | .applyRestOrder order => if order.order.hash = hash then restOrder order tracked else tracked
  | .applyWalletEvent event => if event.orderHash = hash then walletEvent event tracked else tracked
  | .markBookRemoved target => if target = hash then bookRemoved tracked else tracked
  | .requireReconciliation streamGeneration => quarantined streamGeneration tracked
  | .reconcile streamGeneration snapshot => reconciled streamGeneration (recordsOf hash snapshot) tracked

theorem positive_iff (amount : ExactDecimal) :
    ¬((normalize amount.text).negative = true ∨ zero amount = true) ↔ 0 < amount.value := by
  rw [negative_iff, zero_iff]
  constructor
  · intro h
    exact lt_of_le_of_ne (not_lt.mp (fun hn => h (Or.inl hn))) (fun he => h (Or.inr he.symm))
  · rintro h (hn | hz)
    · exact absurd h hn.not_gt
    · exact absurd hz h.ne'

namespace OrderTracker

theorem beginSubmission_ok {hash : Bytes} {amount : ExactDecimal} {t next : OrderTracker} {order : TrackedOrder}
    (h : t.beginSubmission hash amount = .ok (order, next)) :
    validHash hash = true ∧ 0 < amount.value ∧ t.find hash = none ∧ order = submitted hash amount ∧
      next = t.store order := by
  unfold beginSubmission at h
  split at h
  · cases h
  next hv =>
    split at h
    · cases h
    next hp =>
      split at h
      · cases h
      next hn =>
        cases h
        exact ⟨by simpa using hv, (positive_iff amount).mp hp, by simpa using hn, rfl, rfl⟩

theorem alter_ok {hash : Bytes} {change : TrackedOrder → Result TrackedOrder} {t next : OrderTracker}
    (h : t.alter hash change = .ok next) :
    ∃ tracked order, t.find hash = some tracked ∧ change tracked = .ok order ∧ next = t.store order := by
  unfold alter at h
  split at h
  · cases h
  next tracked ht =>
    cases hc : change tracked with
    | error error =>
      rw [hc] at h
      cases h
    | ok order =>
      rw [hc] at h
      cases h
      exact ⟨tracked, order, ht, hc, rfl⟩

variable {error : Error} {tracked : TrackedOrder} {command : Command}

theorem alter_error {hash : Bytes} {change : TrackedOrder → Result TrackedOrder} {t : OrderTracker}
    (h : t.alter hash change = .error error) (ht : t.find hash = some tracked) :
    change tracked = .error error := by
  unfold alter at h
  simp only [ht] at h
  cases hc : change tracked with
  | error failure =>
    rw [hc] at h
    cases h
    rfl
  | ok order =>
    rw [hc] at h
    cases h

theorem markSubmissionRejected_ok {hash : Bytes} {t next : OrderTracker} {changed : Bool}
    (h : t.markSubmissionRejected hash error = .ok (changed, next)) :
    ∃ tracked, t.find hash = some tracked ∧
      ((changed = false ∧ submissionRejected error tracked = .ok none ∧ next = t) ∨
        ∃ order, changed = true ∧ submissionRejected error tracked = .ok (some order) ∧ next = t.store order) := by
  unfold markSubmissionRejected at h
  split at h
  · cases h
  next tracked ht =>
    refine ⟨tracked, ht, ?_⟩
    rcases hc : submissionRejected error tracked with error | _ | order
    · rw [hc] at h
      cases h
    · rw [hc] at h
      cases h
      exact Or.inl ⟨rfl, rfl, rfl⟩
    · rw [hc] at h
      cases h
      exact Or.inr ⟨order, rfl, rfl, rfl⟩

theorem after_ok {t next : OrderTracker} (h : t.perform command = .ok next) :
    t.after command = next := by
  rw [after, h]

theorem after_error {t : OrderTracker} (h : t.perform command = .error error) :
    t.after command = t := by
  rw [after, h]

theorem find_store_of_find {t : OrderTracker} {target hash : Bytes} {found tracked order : TrackedOrder}
    (hf : t.find target = some found) (ho : order.orderHash = found.orderHash) (h : t.find hash = some tracked) :
    (t.store order).find hash = some (if target = hash then order else tracked) := by
  rw [find_store, ho, find_hash hf, h]
  by_cases hh : target = hash
  · rw [if_pos hh.symm, if_pos hh]
  · rw [if_neg (Ne.symm hh), if_neg hh]

theorem find_alter {t : OrderTracker} {target hash : Bytes}
    (change : TrackedOrder → Result TrackedOrder) (hp : t.perform command = t.alter target change)
    (hh : ∀ o o', change o = .ok o' → o'.orderHash = o.orderHash) (h : t.find hash = some tracked) :
    (t.after command).find hash =
      some (if target = hash then (change tracked).toOption.getD tracked else tracked) := by
  cases ha : t.alter target change with
  | error error =>
    rw [after_error (hp.trans ha), h]
    split_ifs with ht
    · rw [alter_error ha (ht ▸ h)]
      rfl
    · rfl
  | ok next =>
    rw [after_ok (hp.trans ha)]
    obtain ⟨found, order, hf, ho, rfl⟩ := alter_ok ha
    rw [find_store_of_find hf (hh _ _ ho) h]
    split_ifs with ht
    · subst ht
      rw [hf] at h
      cases h
      rw [ho]
      rfl
    · rfl

theorem find_markSubmissionRejected {t : OrderTracker} {target hash : Bytes} (error : Error)
    (h : t.find hash = some tracked) :
    (t.after (.markSubmissionRejected target error)).find hash =
      some (if target = hash then (submissionRejected error tracked).toOption.join.getD tracked else tracked) := by
  rcases hc : t.markSubmissionRejected target error with failure | ⟨changed, next⟩
  · rw [after_error (show t.perform (.markSubmissionRejected target error) = .error failure by rw [perform, hc]; rfl), h]
    unfold markSubmissionRejected at hc
    split_ifs with ht
    · subst ht
      rw [h] at hc
      cases ho : submissionRejected error tracked with
      | error failure => rfl
      | ok order =>
        simp only [ho] at hc
        cases hc
    · rfl
  · rw [after_ok (show t.perform (.markSubmissionRejected target error) = .ok next by rw [perform, hc]; rfl)]
    obtain ⟨found, hf, ⟨-, ho, rfl⟩ | ⟨order, -, ho, rfl⟩⟩ := markSubmissionRejected_ok hc
    · rw [h]
      split_ifs with ht
      · subst ht
        rw [hf] at h
        cases h
        rw [ho]
        rfl
      · rfl
    · rw [find_store_of_find hf (submissionRejected_hash ho) h]
      split_ifs with ht
      · subst ht
        rw [hf] at h
        cases h
        rw [ho]
        rfl
      · rfl

theorem find_after_some {t : OrderTracker} {hash : Bytes} (command : Command)
    (h : t.find hash = some tracked) : (t.after command).find hash = some (command.update hash tracked) := by
  cases command with
  | beginSubmission target amount =>
    rcases hb : t.beginSubmission target amount with error | ⟨order, next⟩
    · rw [after_error (show t.perform (.beginSubmission target amount) = .error error by rw [perform, hb]; rfl)]
      exact h
    · rw [after_ok (show t.perform (.beginSubmission target amount) = .ok next by rw [perform, hb]; rfl)]
      obtain ⟨-, -, hn, rfl, rfl⟩ := beginSubmission_ok hb
      have hne : hash ≠ target := by
        rintro rfl
        rw [h] at hn
        cases hn
      rw [find_store, if_neg (show hash ≠ (submitted target amount).orderHash from hne)]
      exact h
  | applyCreateOutcome target outcome => exact find_alter (createOutcome outcome) rfl (fun _ _ => createOutcome_hash) h
  | markSubmissionRejected target error => exact find_markSubmissionRejected error h
  | applyRestOrder order =>
    exact find_alter (fun o => .ok (restOrder order o)) rfl (fun o _ ho => by cases ho; exact restOrder_hash _ _) h
  | applyWalletEvent event =>
    exact find_alter (fun o => .ok (walletEvent event o)) rfl (fun o _ ho => by cases ho; exact walletEvent_hash _ _) h
  | markBookRemoved target =>
    exact find_alter (fun o => .ok (bookRemoved o)) rfl (fun o _ ho => by cases ho; rfl) h
  | requireReconciliation streamGeneration =>
    rw [after_ok (show t.perform (.requireReconciliation streamGeneration) = .ok _ from rfl),
      find_requireReconciliation, h]
    rfl
  | reconcile streamGeneration snapshot =>
    rw [after_ok (show t.perform (.reconcile streamGeneration snapshot) = .ok _ from rfl), find_reconcile, h]
    rfl

theorem find_alter_none {t : OrderTracker} {target hash : Bytes}
    (change : TrackedOrder → Result TrackedOrder) (hp : t.perform command = t.alter target change)
    (hh : ∀ o o', change o = .ok o' → o'.orderHash = o.orderHash) (h : t.find hash = none) :
    (t.after command).find hash = none := by
  cases ha : t.alter target change with
  | error error => rwa [after_error (hp.trans ha)]
  | ok next =>
    rw [after_ok (hp.trans ha)]
    obtain ⟨found, order, hf, ho, rfl⟩ := alter_ok ha
    rw [find_store, hh _ _ ho, find_hash hf]
    split_ifs with ht
    · rw [← ht, h] at hf
      cases hf
    · exact h

theorem find_after_none {t : OrderTracker} {hash : Bytes} (command : Command) (h : t.find hash = none) :
    (t.after command).find hash = none ∨
      ∃ amount, command = .beginSubmission hash amount ∧ validHash hash = true ∧ 0 < amount.value ∧
        (t.after command).find hash = some (submitted hash amount) := by
  cases command with
  | beginSubmission target amount =>
    rcases hb : t.beginSubmission target amount with error | ⟨order, next⟩
    · left
      rwa [after_error (show t.perform (.beginSubmission target amount) = .error error by rw [perform, hb]; rfl)]
    · rw [after_ok (show t.perform (.beginSubmission target amount) = .ok next by rw [perform, hb]; rfl)]
      obtain ⟨hv, ha, -, rfl, rfl⟩ := beginSubmission_ok hb
      rw [find_store]
      by_cases hh : hash = target
      · subst hh
        exact Or.inr ⟨amount, rfl, hv, ha, if_pos rfl⟩
      · left
        rwa [if_neg (show hash ≠ (submitted target amount).orderHash from hh)]
  | applyCreateOutcome target outcome => exact Or.inl (find_alter_none (createOutcome outcome) rfl (fun _ _ => createOutcome_hash) h)
  | markSubmissionRejected target error =>
    left
    rcases hc : t.markSubmissionRejected target error with failure | ⟨changed, next⟩
    · rwa [after_error (show t.perform (.markSubmissionRejected target error) = .error failure by rw [perform, hc]; rfl)]
    · rw [after_ok (show t.perform (.markSubmissionRejected target error) = .ok next by rw [perform, hc]; rfl)]
      obtain ⟨found, hf, ⟨-, -, rfl⟩ | ⟨order, -, ho, rfl⟩⟩ := markSubmissionRejected_ok hc
      · exact h
      · rw [find_store, submissionRejected_hash ho, find_hash hf]
        split_ifs with ht
        · rw [← ht, h] at hf
          cases hf
        · exact h
  | applyRestOrder order =>
    exact Or.inl (find_alter_none (fun o => .ok (restOrder order o)) rfl
      (fun o _ ho => by cases ho; exact restOrder_hash _ _) h)
  | applyWalletEvent event =>
    exact Or.inl (find_alter_none (fun o => .ok (walletEvent event o)) rfl
      (fun o _ ho => by cases ho; exact walletEvent_hash _ _) h)
  | markBookRemoved target =>
    exact Or.inl (find_alter_none (fun o => .ok (bookRemoved o)) rfl (fun o _ ho => by cases ho; rfl) h)
  | requireReconciliation streamGeneration =>
    left
    rw [after_ok (show t.perform (.requireReconciliation streamGeneration) = .ok _ from rfl),
      find_requireReconciliation, h]
    rfl
  | reconcile streamGeneration snapshot =>
    left
    rw [after_ok (show t.perform (.reconcile streamGeneration snapshot) = .ok _ from rfl), find_reconcile, h]
    rfl

end OrderTracker

end PredictFun.Lifecycle
