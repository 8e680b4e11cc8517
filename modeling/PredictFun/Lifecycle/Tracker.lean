import PredictFun.Base.KeyedMap
import PredictFun.Lifecycle.Decimal

namespace PredictFun.Lifecycle

open Base

def validHash (hash : Bytes) : Bool :=
  decide (hash.length = 66) && decide (hash.take 2 = ascii "0x") && (hash.drop 2).all isHexDigit

def deriveFillState (tracked : TrackedOrder) : TrackedOrder :=
  if zero tracked.amountFilled then tracked
  else { tracked with
    state := if compare tracked.amountFilled tracked.amount ≥ 0 then .filled else .partiallyFilled }

def unknown (hash : Bytes) : Error := ⟨.invalidArgument, ascii "order is not tracked", hash, 0, 0⟩

def submitted (hash : Bytes) (amount : ExactDecimal) : TrackedOrder :=
  ⟨hash, none, amount, ExactDecimal.zero, .submissionPending, false, 0, 0, []⟩

def createOutcome (outcome : MutationOutcome CreateOrderReceipt) (tracked : TrackedOrder) : Result TrackedOrder :=
  if outcome.disposition = .ambiguous then
    .ok { tracked with
      state := .ambiguous
      reconciliationRequired := true
      reason := match outcome.ambiguity with
        | some error => error.message
        | none => ascii "mutation result is ambiguous" }
  else
    match outcome.receipt with
    | none => fail .protocolError "acknowledged create outcome has no receipt" "receipt"
    | some receipt =>
      if receipt.orderHash ≠ tracked.orderHash then
        fail .protocolError "create receipt hash does not match tracked order" "hash"
      else
        .ok { tracked with orderId := some receipt.orderId, state := .accepted, reason := receipt.code }

/-- No order comes back when the rejection is already recorded. -/
def submissionRejected (error : Error) (tracked : TrackedOrder) : Result (Option TrackedOrder) :=
  if tracked.state = .rejected then .ok none
  else if tracked.state = .submissionPending then
    .ok (some { tracked with
      state := .rejected
      reconciliationRequired := false
      reason := if error.message = [] then ascii "order submission rejected" else error.message })
  else fail .protocolError "submission rejection conflicts with a later order state" "state"

def restOrder (order : OrderRecord) (tracked : TrackedOrder) : TrackedOrder :=
  let tracked := { tracked with
    orderId := some order.id
    amount := order.amount
    amountFilled := order.amountFilled
    reason := order.status.raw }
  match order.status.value with
  | .open => { deriveFillState { tracked with state := .open } with reconciliationRequired := false }
  | .matched => { tracked with state := .filled, reconciliationRequired := false }
  | .cancelled => { tracked with state := .cancelled, reconciliationRequired := false }
  | .expired => { tracked with state := .expired, reconciliationRequired := false }
  | .invalidated => { tracked with state := .rejected, reconciliationRequired := false }
  | .failed => { tracked with state := .rejected, reconciliationRequired := false }
  | .unknown => { tracked with state := .unknown, reconciliationRequired := true }

def walletEvent (event : WalletEvent) (tracked : TrackedOrder) : TrackedOrder :=
  let tracked := { tracked with
    orderId := if event.orderId = [] then tracked.orderId else some event.orderId
    lastEventTimestampMs := event.timestampMs
    amount := event.details.quantity
    amountFilled := event.details.quantityFilled
    reason := event.reason.getD event.type.raw }
  match event.type.value with
  | .orderAccepted => { deriveFillState { tracked with state := .open } with reconciliationRequired := false }
  | .orderNotAccepted => { tracked with state := .rejected, reconciliationRequired := false }
  | .orderExpired => { tracked with state := .expired, reconciliationRequired := false }
  | .orderCancelled => { tracked with state := .cancelled, reconciliationRequired := false }
  | .orderTransactionSubmitted => { tracked with state := .transactionPending, reconciliationRequired := false }
  | .orderTransactionSuccess =>
    { deriveFillState { tracked with state := .accepted } with reconciliationRequired := false }
  | .orderTransactionFailed => { tracked with state := .transactionFailed, reconciliationRequired := false }
  | .unknown => { tracked with state := .unknown, reconciliationRequired := true }

def bookRemoved (tracked : TrackedOrder) : TrackedOrder :=
  { tracked with
    state := .bookRemoved
    reason := ascii "removed from off-chain orderbook; on-chain order remains valid"
    reconciliationRequired := true }

def quarantined (streamGeneration : BitVec 64) (order : TrackedOrder) : TrackedOrder :=
  if order.terminal then order
  else { order with reconciliationRequired := true, streamGeneration := streamGeneration }

structure OrderTracker where
  orders : KeyedMap Bytes TrackedOrder
  keyed : KeyedMap.Keyed TrackedOrder.orderHash orders

namespace OrderTracker

def empty : OrderTracker := ⟨∅, KeyedMap.Keyed.empty _⟩

def find (t : OrderTracker) (hash : Bytes) : Option TrackedOrder := t.orders.lookup hash

def size (t : OrderTracker) : ℕ := t.orders.entries.length

def store (t : OrderTracker) (order : TrackedOrder) : OrderTracker :=
  ⟨t.orders.insert order.orderHash order, t.keyed.insert order⟩

def snapshot (t : OrderTracker) : List TrackedOrder := t.orders.sortedValues TrackedOrder.orderHash

def beginSubmission (hash : Bytes) (amount : ExactDecimal) (t : OrderTracker) : Result (TrackedOrder × OrderTracker) :=
  if validHash hash = false then
    fail .invalidArgument "order hash must be 0x followed by 64 hex characters" "hash"
  else if (normalize amount.text).negative = true ∨ zero amount = true then
    fail .invalidQuantity "tracked order amount must be positive" "amount"
  else if (t.find hash).isSome = true then
    fail .invalidArgument "order hash is already tracked" "hash"
  else .ok (submitted hash amount, t.store (submitted hash amount))

def alter (hash : Bytes) (change : TrackedOrder → Result TrackedOrder) (t : OrderTracker) : Result OrderTracker :=
  match t.find hash with
  | none => .error (unknown hash)
  | some tracked => (change tracked).map t.store

def applyCreateOutcome (hash : Bytes) (outcome : MutationOutcome CreateOrderReceipt) (t : OrderTracker) :
    Result OrderTracker := t.alter hash (createOutcome outcome)

def markSubmissionRejected (hash : Bytes) (error : Error) (t : OrderTracker) : Result (Bool × OrderTracker) :=
  match t.find hash with
  | none => .error (unknown hash)
  | some tracked =>
    (submissionRejected error tracked).map (fun changed =>
      match changed with
      | none => (false, t)
      | some order => (true, t.store order))

def applyRestOrder (order : OrderRecord) (t : OrderTracker) : Result OrderTracker :=
  t.alter order.order.hash (fun tracked => .ok (restOrder order tracked))

def applyWalletEvent (event : WalletEvent) (t : OrderTracker) : Result OrderTracker :=
  t.alter event.orderHash (fun tracked => .ok (walletEvent event tracked))

def markBookRemoved (hash : Bytes) (t : OrderTracker) : Result OrderTracker :=
  t.alter hash (fun tracked => .ok (bookRemoved tracked))

def mapOrders (f : Bytes → TrackedOrder → TrackedOrder) (hf : ∀ hash order, (f hash order).orderHash = order.orderHash)
    (t : OrderTracker) : OrderTracker :=
  ⟨t.orders.mapValues f, t.keyed.mapValues f hf⟩

theorem quarantined_hash (streamGeneration : BitVec 64) (order : TrackedOrder) :
    (quarantined streamGeneration order).orderHash = order.orderHash := by
  unfold quarantined
  split_ifs <;> rfl

def requireReconciliation (streamGeneration : BitVec 64) (t : OrderTracker) : OrderTracker :=
  t.mapOrders (fun _ order => quarantined streamGeneration order) (fun _ _ => quarantined_hash _ _)

structure Reconciling where
  tracker : OrderTracker
  observed : List Bytes
  count : ℕ

def observe (streamGeneration : BitVec 64) (s : Reconciling) (order : OrderRecord) : Reconciling :=
  match s.tracker.find order.order.hash with
  | none => s
  | some tracked =>
    ⟨s.tracker.store { restOrder order tracked with streamGeneration := streamGeneration },
      s.observed.insert order.order.hash, s.count + 1⟩

def reconcile (streamGeneration : BitVec 64) (completeOrderSnapshot : List OrderRecord) (t : OrderTracker) :
    ReconciliationReport × OrderTracker :=
  let s := completeOrderSnapshot.foldl (observe streamGeneration) ⟨t, [], 0⟩
  let unresolved := s.tracker.orders.entries.filter (fun e => !e.2.terminal && !decide (e.1 ∈ s.observed))
  (⟨t.size, s.count, unresolved.map Sigma.fst⟩,
    s.tracker.mapOrders
      (fun hash order => if hash ∈ s.observed then order else quarantined streamGeneration order)
      (fun _ _ => by split_ifs <;> simp [quarantined_hash]))

def restoreStep (recovered : Result OrderTracker) (order : TrackedOrder) : Result OrderTracker := do
  let t ← recovered
  if validHash order.orderHash = false then
    fail .journalCorrupt "journal contains an invalid order hash" "order_hash"
  else if (normalize order.amount.text).negative = true ∨ zero order.amount = true then
    fail .journalCorrupt "journal contains a non-positive order amount" "amount"
  else if (normalize order.amountFilled.text).negative = true then
    fail .journalCorrupt "journal contains a negative filled amount" "amount_filled"
  else if (t.find order.orderHash).isSome = true then
    fail .journalCorrupt "journal recovery produced duplicate order hashes" "order_hash"
  else .ok (t.store order)

def restore (orders : List TrackedOrder) : Result OrderTracker := orders.foldl restoreStep (.ok empty)

theorem find_hash {t : OrderTracker} {hash : Bytes} {order : TrackedOrder} (h : t.find hash = some order) :
    order.orderHash = hash := t.keyed hash order h

@[simp] theorem find_empty (hash : Bytes) : empty.find hash = none := rfl

@[simp] theorem find_store (t : OrderTracker) (order : TrackedOrder) (hash : Bytes) :
    (t.store order).find hash = if hash = order.orderHash then some order else t.find hash :=
  KeyedMap.lookup_insert_eq _ _ _ _

@[simp] theorem find_mapOrders (f : Bytes → TrackedOrder → TrackedOrder)
    (hf : ∀ hash order, (f hash order).orderHash = order.orderHash) (t : OrderTracker) (hash : Bytes) :
    (t.mapOrders f hf).find hash = (t.find hash).map (f hash) := KeyedMap.lookup_mapValues _ _ _

theorem mem_snapshot (t : OrderTracker) (order : TrackedOrder) :
    order ∈ t.snapshot ↔ t.find order.orderHash = some order := KeyedMap.mem_sortedValues t.keyed order

theorem snapshot_hashes_ne (t : OrderTracker) :
    t.snapshot.Pairwise (fun a b => a.orderHash ≠ b.orderHash) := KeyedMap.sortedValues_keys_ne t.keyed

end OrderTracker

@[simp] theorem deriveFillState_hash (tracked : TrackedOrder) :
    (deriveFillState tracked).orderHash = tracked.orderHash := by
  unfold deriveFillState
  split_ifs <;> rfl

theorem createOutcome_hash {outcome : MutationOutcome CreateOrderReceipt} {tracked changed : TrackedOrder}
    (h : createOutcome outcome tracked = .ok changed) : changed.orderHash = tracked.orderHash := by
  unfold createOutcome at h
  split at h
  · cases h
    rfl
  · split at h
    · cases h
    · split at h
      · cases h
      · cases h
        rfl

theorem submissionRejected_hash {error : Error} {tracked changed : TrackedOrder}
    (h : submissionRejected error tracked = .ok (some changed)) : changed.orderHash = tracked.orderHash := by
  unfold submissionRejected at h
  split at h
  · cases h
  · split at h
    · cases h
      rfl
    · cases h

@[simp] theorem restOrder_hash (order : OrderRecord) (tracked : TrackedOrder) :
    (restOrder order tracked).orderHash = tracked.orderHash := by
  unfold restOrder
  cases order.status.value <;> simp

@[simp] theorem walletEvent_hash (event : WalletEvent) (tracked : TrackedOrder) :
    (walletEvent event tracked).orderHash = tracked.orderHash := by
  unfold walletEvent
  cases event.type.value <;> simp

theorem restOrder_restOrder (order earlier : OrderRecord) (tracked : TrackedOrder) (streamGeneration : BitVec 64) :
    restOrder order { restOrder earlier tracked with streamGeneration := streamGeneration } =
      restOrder order { tracked with streamGeneration := streamGeneration } := by
  have hd : ∀ o : TrackedOrder, (deriveFillState o).lastEventTimestampMs = o.lastEventTimestampMs := by
    intro o
    unfold deriveFillState
    split_ifs <;> rfl
  have ht : (restOrder earlier tracked).lastEventTimestampMs = tracked.lastEventTimestampMs := by
    unfold restOrder
    cases earlier.status.value <;> simp [hd]
  have hh := restOrder_hash earlier tracked
  generalize restOrder earlier tracked = o at ht hh
  cases o
  cases tracked
  simp only at ht hh
  subst ht hh
  unfold restOrder deriveFillState
  cases order.status.value <;> dsimp only
  split_ifs <;> rfl

/-- What the records of one order in a snapshot make of it: the last one counts. -/
def observed (streamGeneration : BitVec 64) (records : List OrderRecord) (tracked : TrackedOrder) : TrackedOrder :=
  match records.getLast? with
  | none => tracked
  | some order => { restOrder order tracked with streamGeneration := streamGeneration }

def reconciled (streamGeneration : BitVec 64) (records : List OrderRecord) (tracked : TrackedOrder) : TrackedOrder :=
  match records.getLast? with
  | none => quarantined streamGeneration tracked
  | some order => { restOrder order tracked with streamGeneration := streamGeneration }

def recordsOf (hash : Bytes) (snapshot : List OrderRecord) : List OrderRecord :=
  snapshot.filter (fun order => order.order.hash = hash)

theorem recordsOf_append (hash : Bytes) (snapshot : List OrderRecord) (order : OrderRecord) :
    recordsOf hash (snapshot ++ [order]) =
      if order.order.hash = hash then recordsOf hash snapshot ++ [order] else recordsOf hash snapshot := by
  unfold recordsOf
  rw [List.filter_append]
  split_ifs with h <;> simp [h]

theorem observed_concat (streamGeneration : BitVec 64) (records : List OrderRecord) (order : OrderRecord)
    (tracked : TrackedOrder) :
    observed streamGeneration (records ++ [order]) tracked =
      { restOrder order (observed streamGeneration records tracked) with streamGeneration := streamGeneration } := by
  have overwrite : ∀ o : TrackedOrder, { restOrder order { o with streamGeneration := streamGeneration } with
      streamGeneration := streamGeneration } = { restOrder order o with streamGeneration := streamGeneration } := by
    intro o
    unfold restOrder deriveFillState
    cases order.status.value <;> dsimp only
    split_ifs <;> rfl
  unfold observed
  rw [List.getLast?_concat]
  cases records.getLast? with
  | none => rfl
  | some earlier => rw [restOrder_restOrder, overwrite]

@[simp] theorem observed_hash (streamGeneration : BitVec 64) (records : List OrderRecord) (tracked : TrackedOrder) :
    (observed streamGeneration records tracked).orderHash = tracked.orderHash := by
  unfold observed
  split <;> simp

namespace OrderTracker

variable (streamGeneration : BitVec 64)

theorem find_foldl_observe (t : OrderTracker) (snapshot : List OrderRecord)
    (hash : Bytes) :
    (snapshot.foldl (observe streamGeneration) ⟨t, [], 0⟩).tracker.find hash =
      (t.find hash).map (observed streamGeneration (recordsOf hash snapshot)) := by
  induction snapshot using List.reverseRecOn with
  | nil => cases h : t.find hash <;> simp [h, recordsOf, observed]
  | append_singleton snapshot order ih =>
    rw [List.foldl_append, List.foldl_cons, List.foldl_nil, recordsOf_append]
    generalize snapshot.foldl (observe streamGeneration) ⟨t, [], 0⟩ = s at ih
    unfold observe
    split
    next hn =>
      split_ifs with hh
      · rw [hh, ih, Option.map_eq_none_iff] at hn
        rw [ih, hn]
        rfl
      · exact ih
    next tracked ht =>
      have hk : ({ restOrder order tracked with streamGeneration := streamGeneration } : TrackedOrder).orderHash =
          order.order.hash := (restOrder_hash order tracked).trans (find_hash ht)
      rw [find_store, hk]
      by_cases hh : order.order.hash = hash
      · subst hh
        rw [if_pos rfl, if_pos rfl]
        rw [ht] at ih
        obtain ⟨o, ho, rfl⟩ := Option.map_eq_some_iff.mp ih.symm
        rw [ho, Option.map_some, observed_concat]
      · rw [if_neg (Ne.symm hh), if_neg hh]
        exact ih

theorem mem_foldl_observe (t : OrderTracker) (snapshot : List OrderRecord)
    (hash : Bytes) :
    hash ∈ (snapshot.foldl (observe streamGeneration) ⟨t, [], 0⟩).observed ↔
      (t.find hash).isSome = true ∧ recordsOf hash snapshot ≠ [] := by
  induction snapshot using List.reverseRecOn with
  | nil => simp [recordsOf]
  | append_singleton snapshot order ih =>
    have hf := find_foldl_observe streamGeneration t snapshot order.order.hash
    rw [List.foldl_append, List.foldl_cons, List.foldl_nil, recordsOf_append]
    generalize snapshot.foldl (observe streamGeneration) ⟨t, [], 0⟩ = s at ih hf
    unfold observe
    split
    next hn =>
      rw [hn] at hf
      have ht : t.find order.order.hash = none := Option.map_eq_none_iff.mp hf.symm
      split_ifs with hh
      · subst hh
        rw [ih, ht]
        simp
      · exact ih
    next tracked hs =>
      rw [hs] at hf
      obtain ⟨o, ho, -⟩ := Option.map_eq_some_iff.mp hf.symm
      rw [List.mem_insert_iff, ih]
      split_ifs with hh
      · subst hh
        simp [ho]
      · simp [Ne.symm hh]

theorem find_reconcile (snapshot : List OrderRecord) (t : OrderTracker) (hash : Bytes) :
    (t.reconcile streamGeneration snapshot).2.find hash =
      (t.find hash).map (reconciled streamGeneration (recordsOf hash snapshot)) := by
  unfold reconcile
  dsimp only
  rw [find_mapOrders, find_foldl_observe, Option.map_map]
  cases ht : t.find hash with
  | none => rfl
  | some tracked =>
    simp only [Option.map_some, Function.comp_apply, mem_foldl_observe, ht, Option.isSome_some, true_and]
    cases hr : (recordsOf hash snapshot).getLast? with
    | none => simp [List.getLast?_eq_none_iff.mp hr, reconciled, observed]
    | some order =>
      have hne : recordsOf hash snapshot ≠ [] := by
        intro h
        rw [h] at hr
        cases hr
      simp [hne, reconciled, observed, hr]

theorem find_requireReconciliation (t : OrderTracker) (hash : Bytes) :
    (t.requireReconciliation streamGeneration).find hash = (t.find hash).map (quarantined streamGeneration) :=
  find_mapOrders _ _ _ _

end OrderTracker

def sampleHash : Bytes := ascii "0x" ++ List.replicate 64 (byte 'a')

def otherHash : Bytes := ascii "0x" ++ List.replicate 64 (byte 'b')

def tenShares : ExactDecimal := ⟨ascii "10", by decide⟩

example : (OrderTracker.empty.beginSubmission sampleHash tenShares).map (fun r => r.2.snapshot) =
    .ok [submitted sampleHash tenShares] := by decide

def sampleNumber : Uint256 := .zero

def sampleAddress : EvmAddress := ⟨List.replicate 20 0, by decide⟩

def sampleEvent (type : WalletEventType) (quantity quantityFilled : ExactDecimal) : WalletEvent where
  type := ⟨type, ascii "sample"⟩
  orderId := ascii "1"
  orderHash := sampleHash
  walletAddress := sampleAddress
  timestampMs := 1
  details := ⟨⟨1⟩, 0, [], ⟨.yes, ascii "YES"⟩, ⟨.bid, ascii "BID"⟩, quantity, quantityFilled, .zero, .zero, .zero,
    ⟨.limit, ascii "LIMIT"⟩, []⟩
  reason := none
  kind := none
  settlementId := none
  fill := none
  isMaker := none
  fee := none

def acknowledged (hash : Bytes) : MutationOutcome CreateOrderReceipt :=
  ⟨.acknowledged, some ⟨ascii "OK", ascii "1", hash, none⟩, none, hash⟩

def sampleRecord (hash : Bytes) (status : EnumValue OrderStatus) (amount amountFilled : ExactDecimal) : OrderRecord where
  order := ⟨hash, sampleNumber, sampleAddress, sampleAddress, none, sampleNumber, sampleNumber, sampleNumber, sampleNumber,
    sampleNumber, sampleNumber, ⟨.buy, ascii "0"⟩, ⟨.eoa, ascii "0"⟩, []⟩
  id := ascii "1"
  marketId := ⟨1⟩
  currency := ascii "USDB"
  amount := amount
  amountFilled := amountFilled
  isNegRisk := false
  isYieldBearing := false
  strategy := ⟨.limit, ascii "LIMIT"⟩
  status := status
  rewardEarningRate := .zero

end PredictFun.Lifecycle
