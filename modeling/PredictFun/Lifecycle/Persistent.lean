import PredictFun.Lifecycle.Command
import PredictFun.Lifecycle.Recovery

namespace PredictFun.Lifecycle

open Base Storage

structure PersistentOrderTracker where
  journal : OrderJournal
  tracker : OrderTracker
  recoveredRecords : ℕ
  ignoredTruncatedTail : Bool

/-- The generation behind every recovered one; it wraps around with the machine integer. -/
def nextGeneration (orders : List TrackedOrder) : BitVec 64 :=
  orders.foldl (fun generation order =>
    if generation < order.streamGeneration + 1 then order.streamGeneration + 1 else generation) 1

def recover (replay : JournalReplay) : Result OrderTracker :=
  (OrderTracker.restore replay.orders).map (fun tracker => tracker.requireReconciliation (nextGeneration replay.orders))

def OrderJournal.repair (journal : OrderJournal) (replay : JournalReplay) : Disk Byte Error Unit :=
  if replay.ignoredTruncatedTail then
    resize (storageError "cannot repair truncated lifecycle journal" journal.path) replay.validBytes
  else pure ()

def OrderJournal.appendQuarantined (journal : OrderJournal) (quarantined : List TrackedOrder) : Disk Byte Error Unit :=
  if quarantined.isEmpty then pure () else journal.append quarantined

def PersistentOrderTracker.open (journal : OrderJournal) : Disk Byte Error PersistentOrderTracker := do
  journal.initializeFile
  let replay ← journal.replay
  journal.repair replay
  let tracker ← ofResult (recover replay)
  journal.appendQuarantined tracker.snapshot
  return ⟨journal, tracker, replay.recordsApplied, replay.ignoredTruncatedTail⟩

namespace PersistentOrderTracker

/-- Append first, publish afterwards. -/
def publish {α : Type} (p : PersistentOrderTracker) (value : α) (records : List TrackedOrder) (next : OrderTracker) :
    Disk Byte Error (α × PersistentOrderTracker) := do
  p.journal.append records
  return (value, { p with tracker := next })

def find (p : PersistentOrderTracker) (hash : Bytes) : Option TrackedOrder := p.tracker.find hash

def beginSubmission (hash : Bytes) (amount : ExactDecimal) (p : PersistentOrderTracker) :
    Disk Byte Error (Option TrackedOrder × PersistentOrderTracker) := do
  let (order, next) ← ofResult (p.tracker.beginSubmission hash amount)
  p.publish (next.find hash) [order] next

def change (hash : Bytes) (changed : Result OrderTracker) (p : PersistentOrderTracker) :
    Disk Byte Error (Bool × PersistentOrderTracker) := do
  let next ← ofResult changed
  p.publish true (next.find hash).toList next

def applyCreateOutcome (hash : Bytes) (outcome : MutationOutcome CreateOrderReceipt) (p : PersistentOrderTracker) :
    Disk Byte Error (Bool × PersistentOrderTracker) := p.change hash (p.tracker.applyCreateOutcome hash outcome)

-- a rejection that is already recorded is not written again
def markSubmissionRejected (hash : Bytes) (error : Error) (p : PersistentOrderTracker) :
    Disk Byte Error (Bool × PersistentOrderTracker) := do
  let (changed, next) ← ofResult (p.tracker.markSubmissionRejected hash error)
  if changed then p.publish true (next.find hash).toList next else pure (false, p)

def applyRestOrder (order : OrderRecord) (p : PersistentOrderTracker) :
    Disk Byte Error (Bool × PersistentOrderTracker) := p.change order.order.hash (p.tracker.applyRestOrder order)

def applyWalletEvent (event : WalletEvent) (p : PersistentOrderTracker) :
    Disk Byte Error (Bool × PersistentOrderTracker) := p.change event.orderHash (p.tracker.applyWalletEvent event)

def markBookRemoved (hash : Bytes) (p : PersistentOrderTracker) : Disk Byte Error (Bool × PersistentOrderTracker) :=
  p.change hash (p.tracker.markBookRemoved hash)

def requireReconciliation (streamGeneration : BitVec 64) (p : PersistentOrderTracker) :
    Disk Byte Error (Bool × PersistentOrderTracker) :=
  let next := p.tracker.requireReconciliation streamGeneration
  p.publish true next.snapshot next

def reconcile (streamGeneration : BitVec 64) (completeOrderSnapshot : List OrderRecord) (p : PersistentOrderTracker) :
    Disk Byte Error (ReconciliationReport × PersistentOrderTracker) :=
  let result := p.tracker.reconcile streamGeneration completeOrderSnapshot
  p.publish result.1 result.2.snapshot result.2

def execute (command : Command) (p : PersistentOrderTracker) : Disk Byte Error PersistentOrderTracker :=
  match command with
  | .beginSubmission hash amount => Prod.snd <$> p.beginSubmission hash amount
  | .applyCreateOutcome hash outcome => Prod.snd <$> p.applyCreateOutcome hash outcome
  | .markSubmissionRejected hash error => Prod.snd <$> p.markSubmissionRejected hash error
  | .applyRestOrder order => Prod.snd <$> p.applyRestOrder order
  | .applyWalletEvent event => Prod.snd <$> p.applyWalletEvent event
  | .markBookRemoved hash => Prod.snd <$> p.markBookRemoved hash
  | .requireReconciliation streamGeneration => Prod.snd <$> p.requireReconciliation streamGeneration
  | .reconcile streamGeneration snapshot => Prod.snd <$> p.reconcile streamGeneration snapshot

end PersistentOrderTracker

/-- What an operation appends and publishes; nothing is appended for a rejection that is already recorded. -/
def OrderTracker.plan (t : OrderTracker) : Command → Result (Option (List TrackedOrder) × OrderTracker)
  | .beginSubmission hash amount => (t.beginSubmission hash amount).map (fun r => (some [r.1], r.2))
  | .applyCreateOutcome hash outcome =>
    (t.applyCreateOutcome hash outcome).map (fun next => (some (next.find hash).toList, next))
  | .markSubmissionRejected hash error =>
    (t.markSubmissionRejected hash error).map (fun r => (if r.1 then some (r.2.find hash).toList else none, r.2))
  | .applyRestOrder order =>
    (t.applyRestOrder order).map (fun next => (some (next.find order.order.hash).toList, next))
  | .applyWalletEvent event =>
    (t.applyWalletEvent event).map (fun next => (some (next.find event.orderHash).toList, next))
  | .markBookRemoved hash => (t.markBookRemoved hash).map (fun next => (some (next.find hash).toList, next))
  | .requireReconciliation streamGeneration =>
    .ok (some (t.requireReconciliation streamGeneration).snapshot, t.requireReconciliation streamGeneration)
  | .reconcile streamGeneration snapshot =>
    .ok (some (t.reconcile streamGeneration snapshot).2.snapshot, (t.reconcile streamGeneration snapshot).2)

def PersistentOrderTracker.carryOut (p : PersistentOrderTracker) :
    Result (Option (List TrackedOrder) × OrderTracker) → Disk Byte Error PersistentOrderTracker
  | .error error => refuse error
  | .ok (none, _) => pure p
  | .ok (some records, next) => do
    p.journal.append records
    return { p with tracker := next }

namespace PersistentOrderTracker

variable (p : PersistentOrderTracker)

theorem map_snd_publish {α : Type} (value : α) (records : List TrackedOrder)
    (next : OrderTracker) : Prod.snd <$> p.publish value records next = p.carryOut (.ok (some records, next)) := by
  funext w
  change andThen (andThen (p.journal.append records) _) _ w = andThen (p.journal.append records) _ w
  unfold andThen
  cases p.journal.append records w with
  | mk o w => cases o <;> rfl

theorem map_snd_change (hash : Bytes) (changed : Result OrderTracker) :
    Prod.snd <$> p.change hash changed = p.carryOut (changed.map (fun next => (some (next.find hash).toList, next))) := by
  cases changed with
  | error error => rfl
  | ok next => exact map_snd_publish p true _ next

theorem map_snd_beginSubmission (hash : Bytes) (amount : ExactDecimal) :
    Prod.snd <$> p.beginSubmission hash amount =
      p.carryOut ((p.tracker.beginSubmission hash amount).map (fun r => (some [r.1], r.2))) := by
  rw [beginSubmission]
  cases p.tracker.beginSubmission hash amount with
  | error error => rfl
  | ok r => exact map_snd_publish p _ _ r.2

theorem map_snd_markSubmissionRejected (hash : Bytes) (error : Error) :
    Prod.snd <$> p.markSubmissionRejected hash error =
      p.carryOut ((p.tracker.markSubmissionRejected hash error).map
        (fun r => (if r.1 then some (r.2.find hash).toList else none, r.2))) := by
  rw [markSubmissionRejected]
  cases p.tracker.markSubmissionRejected hash error with
  | error error => rfl
  | ok r =>
    obtain ⟨changed, next⟩ := r
    cases changed with
    | false => rfl
    | true => exact map_snd_publish p true _ next

theorem execute_eq (command : Command) :
    p.execute command = p.carryOut (p.tracker.plan command) := by
  cases command with
  | beginSubmission hash amount => exact map_snd_beginSubmission p hash amount
  | applyCreateOutcome hash outcome => exact map_snd_change p hash _
  | markSubmissionRejected hash error => exact map_snd_markSubmissionRejected p hash error
  | applyRestOrder order => exact map_snd_change p _ _
  | applyWalletEvent event => exact map_snd_change p _ _
  | markBookRemoved hash => exact map_snd_change p hash _
  | requireReconciliation streamGeneration => exact map_snd_publish p _ _ _
  | reconcile streamGeneration snapshot => exact map_snd_publish p _ _ _

end PersistentOrderTracker

namespace OrderTracker

theorem plan_perform (t : OrderTracker) (command : Command) :
    (t.plan command).map Prod.snd = t.perform command := by
  cases command with
  | beginSubmission hash amount =>
    rw [plan, perform]
    cases t.beginSubmission hash amount <;> rfl
  | applyCreateOutcome hash outcome =>
    rw [plan, perform]
    cases t.applyCreateOutcome hash outcome <;> rfl
  | markSubmissionRejected hash error =>
    rw [plan, perform]
    cases t.markSubmissionRejected hash error <;> rfl
  | applyRestOrder order =>
    rw [plan, perform]
    cases t.applyRestOrder order <;> rfl
  | applyWalletEvent event =>
    rw [plan, perform]
    cases t.applyWalletEvent event <;> rfl
  | markBookRemoved hash =>
    rw [plan, perform]
    cases t.markBookRemoved hash <;> rfl
  | requireReconciliation streamGeneration => rfl
  | reconcile streamGeneration snapshot => rfl

variable {t next : OrderTracker} {records : Option (List TrackedOrder)}

theorem after_plan_ok {command : Command}
    (h : t.plan command = .ok (records, next)) : t.after command = next := by
  have hp := t.plan_perform command
  rw [h] at hp
  exact after_ok hp.symm

/-- The records of a plan are orders of the new tracker, one for each hash, and nothing else changes. -/
structure Planned (t : OrderTracker) (records : List TrackedOrder) (next : OrderTracker) : Prop where
  stored : ∀ order ∈ records, next.find order.orderHash = some order
  kept : ∀ hash, (∀ order ∈ records, order.orderHash ≠ hash) → next.find hash = t.find hash
  distinct : records.Pairwise (fun a b => a.orderHash ≠ b.orderHash)

theorem planned_store {t : OrderTracker} (order : TrackedOrder) : Planned t [order] (t.store order) where
  stored := by simp
  kept := by
    intro hash h
    rw [find_store, if_neg (Ne.symm (h order (by simp)))]
  distinct := List.pairwise_singleton _ _

theorem planned_snapshot
    (h : ∀ hash, next.find hash = none → t.find hash = none) : Planned t next.snapshot next where
  stored := fun order ho => (next.mem_snapshot order).mp ho
  kept := by
    intro hash hn
    cases hf : next.find hash with
    | none => rw [h hash hf]
    | some order =>
      have ho : order.orderHash = hash := find_hash hf
      exact absurd ho (hn order ((next.mem_snapshot order).mpr (by rw [ho]; exact hf)))
  distinct := next.snapshot_hashes_ne

theorem planned_alter {hash : Bytes} {change : TrackedOrder → Result TrackedOrder}
    (hh : ∀ o o', change o = .ok o' → o'.orderHash = o.orderHash) (h : t.alter hash change = .ok next) :
    Planned t (next.find hash).toList next := by
  obtain ⟨tracked, order, hf, ho, rfl⟩ := alter_ok h
  have hk : order.orderHash = hash := (hh _ _ ho).trans (find_hash hf)
  rw [find_store, if_pos hk.symm]
  exact planned_store order

theorem planned_map_find {hash : Bytes} {change : TrackedOrder → Result TrackedOrder}
    (hh : ∀ o o', change o = .ok o' → o'.orderHash = o.orderHash)
    (h : (t.alter hash change).map (fun next => (some (next.find hash).toList, next)) = .ok (records, next)) :
    ∃ orders, records = some orders ∧ Planned t orders next := by
  obtain ⟨u, hu, he⟩ := Result.ok_of_map h
  cases he
  exact ⟨_, rfl, planned_alter hh hu⟩

theorem plan_ok {command : Command}
    (h : t.plan command = .ok (records, next)) :
    (records = none ∧ next = t) ∨ ∃ orders, records = some orders ∧ Planned t orders next := by
  cases command with
  | beginSubmission hash amount =>
    obtain ⟨⟨order, u⟩, hb, he⟩ := Result.ok_of_map h
    cases he
    obtain ⟨-, -, -, rfl, rfl⟩ := beginSubmission_ok hb
    exact Or.inr ⟨_, rfl, planned_store _⟩
  | applyCreateOutcome hash outcome => exact Or.inr (planned_map_find (fun _ _ => createOutcome_hash) h)
  | markSubmissionRejected hash error =>
    obtain ⟨⟨changed, u⟩, hm, he⟩ := Result.ok_of_map h
    cases he
    obtain ⟨tracked, hf, ⟨rfl, -, rfl⟩ | ⟨order, rfl, ho, rfl⟩⟩ := markSubmissionRejected_ok hm
    · exact Or.inl ⟨rfl, rfl⟩
    · have hk : order.orderHash = hash := (submissionRejected_hash ho).trans (find_hash hf)
      refine Or.inr ⟨_, rfl, ?_⟩
      rw [find_store, if_pos hk.symm]
      exact planned_store order
  | applyRestOrder order =>
    exact Or.inr (planned_map_find (fun o _ ho => by cases ho; exact restOrder_hash order o) h)
  | applyWalletEvent event =>
    exact Or.inr (planned_map_find (fun o _ ho => by cases ho; exact walletEvent_hash event o) h)
  | markBookRemoved hash => exact Or.inr (planned_map_find (fun o _ ho => by cases ho; rfl) h)
  | requireReconciliation streamGeneration =>
    cases h
    refine Or.inr ⟨_, rfl, planned_snapshot (fun hash hn => ?_)⟩
    rwa [find_requireReconciliation, Option.map_eq_none_iff] at hn
  | reconcile streamGeneration snapshot =>
    cases h
    refine Or.inr ⟨_, rfl, planned_snapshot (fun hash hn => ?_)⟩
    rwa [find_reconcile, Option.map_eq_none_iff] at hn

end OrderTracker

def Restorable (order : TrackedOrder) : Prop :=
  validHash order.orderHash = true ∧ 0 < order.amount.value ∧ 0 ≤ order.amountFilled.value

namespace OrderTracker

theorem restoreStep_ok {t next : OrderTracker} {order : TrackedOrder} (h : restoreStep (.ok t) order = .ok next) :
    Restorable order ∧ t.find order.orderHash = none ∧ next = t.store order := by
  change (if _ then _ else _) = _ at h
  split at h
  · cases h
  next hv =>
    split at h
    · cases h
    next hp =>
      split at h
      · cases h
      next hf =>
        split at h
        · cases h
        next hn =>
          cases h
          refine ⟨⟨by simpa using hv, (positive_iff order.amount).mp hp, ?_⟩, by simpa using hn, rfl⟩
          rw [negative_iff] at hf
          exact not_lt.mp hf

theorem restoreStep_of_restorable {t : OrderTracker} {order : TrackedOrder} (h : Restorable order)
    (hn : t.find order.orderHash = none) : restoreStep (.ok t) order = .ok (t.store order) := by
  change (if _ then _ else _) = _
  rw [if_neg (by simp [h.1]), if_neg ((positive_iff order.amount).mpr h.2.1),
    if_neg (by rw [negative_iff]; exact not_lt.mpr h.2.2), if_neg (by simp [hn])]

theorem foldl_restoreStep_error (error : Error) (orders : List TrackedOrder) :
    orders.foldl restoreStep (.error error) = .error error := by
  induction orders with
  | nil => rfl
  | cons order orders ih => exact ih

theorem foldl_restoreStep_ok {t next : OrderTracker} {orders : List TrackedOrder}
    (h : orders.foldl restoreStep (.ok t) = .ok next) :
    (∀ order ∈ orders, Restorable order) ∧
      ∀ order, next.find order.orderHash = some order ↔ order ∈ orders ∨ t.find order.orderHash = some order := by
  induction orders generalizing t with
  | nil =>
    cases h
    simp
  | cons first orders ih =>
    rw [List.foldl_cons] at h
    cases hs : restoreStep (.ok t) first with
    | error error =>
      rw [hs, foldl_restoreStep_error] at h
      cases h
    | ok u =>
      rw [hs] at h
      obtain ⟨hr, hn, rfl⟩ := restoreStep_ok hs
      obtain ⟨hall, hfind⟩ := ih h
      refine ⟨by simpa using ⟨hr, hall⟩, fun order => ?_⟩
      rw [hfind, find_store, List.mem_cons]
      by_cases ho : order.orderHash = first.orderHash
      · rw [if_pos ho, ho, hn]
        simp only [Option.some.injEq, reduceCtorEq, or_false]
        exact ⟨fun h => h.elim Or.inr (fun h => Or.inl h.symm), fun h => h.elim (fun h => Or.inr h.symm) Or.inl⟩
      · rw [if_neg ho]
        have hne : order ≠ first := fun h => ho (by rw [h])
        simp [hne]

theorem foldl_restoreStep_of_restorable (t : OrderTracker) (orders : List TrackedOrder)
    (hr : ∀ order ∈ orders, Restorable order) (hd : orders.Pairwise (fun a b => a.orderHash ≠ b.orderHash))
    (ht : ∀ order ∈ orders, t.find order.orderHash = none) : ∃ next, orders.foldl restoreStep (.ok t) = .ok next := by
  induction orders generalizing t with
  | nil => exact ⟨t, rfl⟩
  | cons order orders ih =>
    simp only [List.mem_cons, forall_eq_or_imp] at hr ht
    obtain ⟨hne, hd⟩ := List.pairwise_cons.mp hd
    rw [List.foldl_cons, restoreStep_of_restorable hr.1 ht.1]
    refine ih _ hr.2 hd (fun other ho => ?_)
    rw [find_store, if_neg (Ne.symm (hne other ho))]
    exact ht.2 other ho

end OrderTracker

theorem recover_ok {records : List TrackedOrder} {bytes : ℕ} {torn : Bool} {t : OrderTracker}
    (h : recover (replayed records bytes torn) = .ok t) (hash : Bytes) :
    t.find hash = ((latestOrders records).lookup hash).map
      (quarantined (nextGeneration (replayed records bytes torn).orders)) := by
  obtain ⟨u, hu, rfl⟩ := Result.ok_of_map h
  obtain ⟨-, hfind⟩ := OrderTracker.foldl_restoreStep_ok hu
  rw [OrderTracker.find_requireReconciliation]
  congr 1
  apply Option.ext
  intro order
  constructor
  · intro hf
    have ho : order.orderHash = hash := OrderTracker.find_hash hf
    subst ho
    have hm := (hfind order).mp hf
    rw [OrderTracker.find_empty] at hm
    simpa [replayed, KeyedMap.mem_sortedValues (latestOrders_keyed records)] using hm
  · intro hl
    have ho : order.orderHash = hash := latestOrders_keyed records hash order hl
    subst ho
    exact (hfind order).mpr (Or.inl ((KeyedMap.mem_sortedValues (latestOrders_keyed records) order).mpr hl))

theorem recover_ok_iff (records : List TrackedOrder) (bytes : ℕ) (torn : Bool) :
    (∃ t, recover (replayed records bytes torn) = .ok t) ↔
      ∀ hash order, (latestOrders records).lookup hash = some order → Restorable order := by
  have hmem (order : TrackedOrder) : order ∈ (replayed records bytes torn).orders ↔
      (latestOrders records).lookup order.orderHash = some order :=
    KeyedMap.mem_sortedValues (latestOrders_keyed records) order
  constructor
  · rintro ⟨t, ht⟩ hash order hl
    obtain ⟨u, hu, -⟩ := Result.ok_of_map ht
    have ho : order.orderHash = hash := latestOrders_keyed records hash order hl
    subst ho
    exact (OrderTracker.foldl_restoreStep_ok hu).1 order ((hmem order).mpr hl)
  · intro h
    obtain ⟨u, hu⟩ := OrderTracker.foldl_restoreStep_of_restorable .empty (replayed records bytes torn).orders
      (fun order ho => h _ order ((hmem order).mp ho))
      (KeyedMap.sortedValues_keys_ne (latestOrders_keyed records)) (fun _ _ => rfl)
    exact ⟨u.requireReconciliation (nextGeneration (replayed records bytes torn).orders), by
      rw [recover, OrderTracker.restore, hu]
      rfl⟩

end PredictFun.Lifecycle
