import PredictFun.Lifecycle.Persistent

namespace PredictFun.Lifecycle

open Base RecordLog Storage

@[simp] theorem quarantined_orderId (streamGeneration : BitVec 64) (order : TrackedOrder) :
    (quarantined streamGeneration order).orderId = order.orderId := by
  unfold quarantined
  split_ifs <;> rfl

@[simp] theorem quarantined_amount (streamGeneration : BitVec 64) (order : TrackedOrder) :
    (quarantined streamGeneration order).amount = order.amount := by
  unfold quarantined
  split_ifs <;> rfl

@[simp] theorem quarantined_amountFilled (streamGeneration : BitVec 64) (order : TrackedOrder) :
    (quarantined streamGeneration order).amountFilled = order.amountFilled := by
  unfold quarantined
  split_ifs <;> rfl

@[simp] theorem quarantined_state (streamGeneration : BitVec 64) (order : TrackedOrder) :
    (quarantined streamGeneration order).state = order.state := by
  unfold quarantined
  split_ifs <;> rfl

@[simp] theorem quarantined_reason (streamGeneration : BitVec 64) (order : TrackedOrder) :
    (quarantined streamGeneration order).reason = order.reason := by
  unfold quarantined
  split_ifs <;> rfl

theorem quarantined_encodes (maximum : ℕ) (streamGeneration : BitVec 64) (order : TrackedOrder) :
    Encodes maximum (quarantined streamGeneration order) ↔ Encodes maximum order := by
  unfold Encodes FieldsFit
  rw [payload_length, payload_length]
  simp only [stringFields, OrderTracker.quarantined_hash, quarantined_orderId, quarantined_amount,
    quarantined_amountFilled, quarantined_reason]

theorem quarantined_payload_length (streamGeneration : BitVec 64) (order : TrackedOrder) :
    (payload (quarantined streamGeneration order)).length = (payload order).length := by
  rw [payload_length, payload_length]
  simp only [OrderTracker.quarantined_hash, quarantined_orderId, quarantined_amount, quarantined_amountFilled,
    quarantined_reason]

namespace OrderJournal

variable {journal : OrderJournal}

theorem Holds.encodes {file : Bytes} {values : List Frame} (h : journal.Holds file values) :
    ∀ value ∈ values, Encodes journal.options.maximumRecordBytes value.order ∧ (payload value.order).length < 2 ^ 32 := by
  obtain ⟨body, -, hr⟩ := h
  induction hr with
  | nil => simp
  | @cons used input value values head _ ih =>
    simp only [List.mem_cons, forall_eq_or_imp]
    refine ⟨?_, ih⟩
    obtain ⟨size, bytes, -, hb, hm, hd, -⟩ := nextFrame_record (head [])
    obtain ⟨hf, hl⟩ := decode_fits hd
    have := size.isLt
    exact ⟨⟨hf, by omega⟩, by omega⟩

def Agrees (journal : OrderJournal) (file : Bytes) (t : OrderTracker) : Prop :=
  ∃ values, journal.Holds file values ∧ ∀ hash, (latestOrders (values.map Frame.order)).lookup hash = t.find hash

theorem mem_of_lookup_latest {records : List TrackedOrder} {hash : Bytes} {order : TrackedOrder}
    (h : (latestOrders records).lookup hash = some order) : order ∈ records := by
  rw [lookup_latestOrders] at h
  exact (List.mem_filter.mp (List.mem_of_getLast? h)).1

theorem Agrees.snapshot {file : Bytes} {t : OrderTracker} (h : journal.Agrees file t) :
    ∃ replay, journal.replayBytes file = .ok replay ∧ replay.orders = t.snapshot := by
  obtain ⟨values, hh, hl⟩ := h
  have hr := hh.replay (Or.inl (rfl : ([] : Bytes) = []))
  rw [List.append_nil] at hr
  exact ⟨_, hr, KeyedMap.sortedValues_ext (latestOrders_keyed _) t.keyed hl⟩

theorem find_distinct {orders : List TrackedOrder} (hd : orders.Pairwise (fun a b => a.orderHash ≠ b.orderHash))
    {order : TrackedOrder} (ho : order ∈ orders) :
    orders.find? (fun other => other.orderHash = order.orderHash) = some order := by
  induction orders with
  | nil => cases ho
  | cons first orders ih =>
    obtain ⟨hne, hd⟩ := List.pairwise_cons.mp hd
    rcases List.mem_cons.mp ho with rfl | ho
    · simp
    · rw [List.find?_cons_of_neg (by simpa using hne order ho)]
      exact ih hd ho

theorem lookup_latest_batch {records orders : List TrackedOrder} (t : OrderTracker)
    (hl : ∀ hash, (latestOrders records).lookup hash = t.find hash)
    (hd : orders.Pairwise (fun a b => a.orderHash ≠ b.orderHash)) (hash : Bytes) :
    (latestOrders (records ++ orders)).lookup hash =
      (orders.find? (fun order => order.orderHash = hash)).or (t.find hash) := by
  rw [← hl, latestOrders, KeyedMap.latest_append, KeyedMap.lookup_latest]
  congr 1
  induction orders with
  | nil => rfl
  | cons order orders ih =>
    obtain ⟨hne, hd⟩ := List.pairwise_cons.mp hd
    by_cases ho : order.orderHash = hash
    · have hnone : orders.filter (fun r => r.orderHash = hash) = [] := by
        rw [List.filter_eq_nil_iff]
        intro other hm
        simpa [← ho] using (hne other hm).symm
      simp [ho, hnone]
    · simp [ho, ih hd]

theorem Agrees.append {file : Bytes} {t next : OrderTracker} {orders : List TrackedOrder} (h : journal.Agrees file t)
    (hp : OrderTracker.Planned t orders next) (he : ∀ order ∈ orders, Encodes journal.options.maximumRecordBytes order)
    (hs : ∀ order ∈ orders, (payload order).length < 2 ^ 32) :
    journal.Agrees (file ++ orders.flatMap frame) next := by
  obtain ⟨values, hh, hl⟩ := h
  obtain ⟨values', hh', hv⟩ := hh.append orders he hs
  refine ⟨values', hh', fun hash => ?_⟩
  rw [hv, lookup_latest_batch t hl hp.distinct]
  cases hf : orders.find? (fun order => order.orderHash = hash) with
  | none =>
    rw [Option.none_or, hp.kept hash]
    intro order ho
    simpa using List.find?_eq_none.mp hf order ho
  | some order =>
    have ho : order.orderHash = hash := by simpa using List.find?_some hf
    rw [Option.some_or, ← ho, hp.stored order (List.mem_of_find?_eq_some hf)]

end OrderJournal

theorem recovered_encodes {journal : OrderJournal} {good : Bytes} {values : List Frame} {torn : Bool} {t : OrderTracker}
    (hh : journal.Holds good values) (hr : recover (replayed (values.map Frame.order) good.length torn) = .ok t) :
    ∀ order ∈ t.snapshot, Encodes journal.options.maximumRecordBytes order ∧ (payload order).length < 2 ^ 32 := by
  intro order ho
  rw [OrderTracker.mem_snapshot, recover_ok hr, Option.map_eq_some_iff] at ho
  obtain ⟨record, hl, rfl⟩ := ho
  obtain ⟨value, hv, rfl⟩ := List.mem_map.mp (OrderJournal.mem_of_lookup_latest hl)
  rw [quarantined_encodes, quarantined_payload_length]
  exact hh.encodes value hv

theorem recovered_planned {good : Bytes} {values : List Frame} {torn : Bool} {t : OrderTracker}
    (hr : recover (replayed (values.map Frame.order) good.length torn) = .ok t) (hash : Bytes) :
    (latestOrders (values.map Frame.order ++ t.snapshot)).lookup hash = t.find hash := by
  have hl := recover_ok hr
  rw [latestOrders, KeyedMap.latest_append, KeyedMap.lookup_latest]
  cases hf : t.find hash with
  | none =>
    rw [hl, Option.map_eq_none_iff] at hf
    rw [← latestOrders, hf, Option.or_none, List.getLast?_eq_none_iff, List.filter_eq_nil_iff]
    intro order ho hh
    rw [OrderTracker.mem_snapshot, of_decide_eq_true hh, hl, hf] at ho
    cases ho
  | some order =>
    have ho : order.orderHash = hash := OrderTracker.find_hash hf
    have hm : order ∈ t.snapshot := (t.mem_snapshot order).mpr (by rw [ho]; exact hf)
    have hall : ∀ other ∈ t.snapshot.filter (fun r => r.orderHash = hash), other = order := by
      intro other hother
      obtain ⟨hin, hh⟩ := List.mem_filter.mp hother
      rw [OrderTracker.mem_snapshot, of_decide_eq_true hh, hf] at hin
      exact (Option.some.inj hin).symm
    cases hlast : (t.snapshot.filter (fun r => r.orderHash = hash)).getLast? with
    | none =>
      rw [List.getLast?_eq_none_iff, List.filter_eq_nil_iff] at hlast
      exact absurd (by simpa using ho) (hlast order hm)
    | some other =>
      rw [Option.some_or, hall other (List.mem_of_getLast? hlast)]

variable {journal : OrderJournal} {file : Option Bytes} {good tail : Bytes} {values : List Frame}

theorem repair_nil (records : List TrackedOrder) :
    journal.repair (replayed records good.length (decide (tail ≠ []))) ⟨some (good ++ tail), []⟩ =
      (.ok (), ⟨some good, []⟩) := by
  unfold OrderJournal.repair replayed
  by_cases ht : tail = []
  · simp [ht]
  · simp [ht]

theorem appendQuarantined_nil (hu : journal.Usable) (orders : List TrackedOrder)
    (he : ∀ order ∈ orders, Encodes journal.options.maximumRecordBytes order) :
    journal.appendQuarantined orders ⟨some good, []⟩ = (.ok (), ⟨some (good ++ orders.flatMap frame), []⟩) := by
  unfold OrderJournal.appendQuarantined
  split_ifs with h0
  · simp [List.isEmpty_iff.mp h0]
  · have ha := OrderJournal.append_nil hu (some good) orders
    obtain ⟨-, hv⟩ | ⟨hn, -⟩ := verdict_render journal.options.maximumRecordBytes orders
    · rwa [hv, encodable_of_all he] at ha
    · exact absurd he hn

theorem open_recovered (hu : journal.Usable) {t : OrderTracker} (hf : file.getD fileMagic = good ++ tail)
    (hh : journal.Holds good values) (ht : journal.Torn tail)
    (hr : recover (replayed (values.map Frame.order) good.length (decide (tail ≠ []))) = .ok t) :
    PersistentOrderTracker.open journal ⟨file, []⟩ =
      (.ok ⟨journal, t, values.length, decide (tail ≠ [])⟩, ⟨some (good ++ t.snapshot.flatMap frame), []⟩) := by
  have he : ∀ order ∈ t.snapshot, Encodes journal.options.maximumRecordBytes order :=
    fun order ho => (recovered_encodes hh hr order ho).1
  rw [PersistentOrderTracker.open, bind_ok (OrderJournal.initializeFile_nil hu file), hf,
    bind_ok (OrderJournal.replay_apply _ _ (hh.replay ht)), bind_ok (repair_nil _), hr,
    bind_ok (show ofResult (.ok t) _ = (.ok t, _) from rfl), bind_ok (appendQuarantined_nil hu _ he)]
  simp [replayed]

theorem open_unrecovered (hu : journal.Usable) {error : Error} (hf : file.getD fileMagic = good ++ tail)
    (hh : journal.Holds good values) (ht : journal.Torn tail)
    (hr : recover (replayed (values.map Frame.order) good.length (decide (tail ≠ []))) = .error error) :
    PersistentOrderTracker.open journal ⟨file, []⟩ = (.error error, ⟨some good, []⟩) := by
  rw [PersistentOrderTracker.open, bind_ok (OrderJournal.initializeFile_nil hu file), hf,
    bind_ok (OrderJournal.replay_apply _ _ (hh.replay ht)), bind_ok (repair_nil _), hr]
  exact bind_error rfl

theorem open_unreadable (hu : journal.Usable) {error : Error}
    (hr : journal.replayBytes (file.getD fileMagic) = .error error) :
    PersistentOrderTracker.open journal ⟨file, []⟩ = (.error error, ⟨some (file.getD fileMagic), []⟩) := by
  rw [PersistentOrderTracker.open, bind_ok (OrderJournal.initializeFile_nil hu file)]
  have : journal.replay ⟨some (file.getD fileMagic), []⟩ = (.error error, ⟨some (file.getD fileMagic), []⟩) := by
    rw [OrderJournal.replay, bind_ok (contents_apply _)]
    dsimp only
    rw [hr]
    rfl
  exact bind_error this

theorem open_unusable (hu : ¬journal.Usable) (w : World Byte) :
    ∃ error, PersistentOrderTracker.open journal w = (.error error, w) := by
  have hi : ∃ error, journal.initializeFile w = (.error error, w) := by
    unfold OrderJournal.initializeFile
    split_ifs with hp hm
    · exact ⟨_, rfl⟩
    · exact ⟨_, rfl⟩
    · exact absurd ⟨hp, by omega⟩ hu
  obtain ⟨error, hi⟩ := hi
  exact ⟨error, by rw [PersistentOrderTracker.open, bind_error hi]⟩

theorem open_ok {p : PersistentOrderTracker} {w : World Byte}
    (h : PersistentOrderTracker.open journal ⟨file, []⟩ = (.ok p, w)) :
    journal.Usable ∧ ∃ good tail values, file.getD fileMagic = good ++ tail ∧ journal.Holds good values ∧
      journal.Torn tail ∧
      recover (replayed (values.map Frame.order) good.length (decide (tail ≠ []))) = .ok p.tracker ∧
      p.journal = journal ∧ w = ⟨some (good ++ p.tracker.snapshot.flatMap frame), []⟩ := by
  by_cases hu : journal.Usable
  · refine ⟨hu, ?_⟩
    cases hr : journal.replayBytes (file.getD fileMagic) with
    | error error =>
      rw [open_unreadable hu hr] at h
      cases h
    | ok replay =>
      obtain ⟨good, tail, values, hf, hh, ht, -⟩ := OrderJournal.replayBytes_ok hr
      cases hrec : recover (replayed (values.map Frame.order) good.length (decide (tail ≠ []))) with
      | error error =>
        rw [open_unrecovered hu hf hh ht hrec] at h
        cases h
      | ok t =>
        rw [open_recovered hu hf hh ht hrec] at h
        cases h
        exact ⟨good, tail, values, hf, hh, ht, hrec, rfl, rfl⟩
  · obtain ⟨error, he⟩ := open_unusable hu ⟨file, []⟩
    rw [he] at h
    cases h

theorem agrees_recovered (hh : journal.Holds good values) {t : OrderTracker} {torn : Bool}
    (hr : recover (replayed (values.map Frame.order) good.length torn) = .ok t) :
    journal.Agrees (good ++ t.snapshot.flatMap frame) t := by
  have he := recovered_encodes hh hr
  obtain ⟨values', hh', hv⟩ := hh.append t.snapshot (fun o ho => (he o ho).1) (fun o ho => (he o ho).2)
  refine ⟨values', hh', fun hash => ?_⟩
  rw [hv]
  exact recovered_planned hr hash

theorem open_agrees {p : PersistentOrderTracker} {w : World Byte}
    (h : PersistentOrderTracker.open journal ⟨file, []⟩ = (.ok p, w)) :
    ∃ f, w = ⟨some f, []⟩ ∧ p.journal.Usable ∧ p.journal.Agrees f p.tracker := by
  obtain ⟨hu, good, tail, values, -, hh, -, hr, rfl, rfl⟩ := open_ok h
  exact ⟨_, rfl, hu, agrees_recovered hh hr⟩

end PredictFun.Lifecycle
