import PredictFun.Lifecycle.Replay

namespace PredictFun.Lifecycle

open Base RecordLog Storage

def LastOf (records : List TrackedOrder) (order : TrackedOrder) : Prop :=
  (records.filter (fun r => r.orderHash = order.orderHash)).getLast? = some order

structure ReplayOf (records : List TrackedOrder) (bytes : ℕ) (torn : Prop) (replay : JournalReplay) : Prop where
  sorted : replay.orders.Pairwise (fun a b => a.orderHash < b.orderHash)
  latest : ∀ order, order ∈ replay.orders ↔ LastOf records order
  applied : replay.recordsApplied = records.length
  valid : replay.validBytes = bytes
  tail : replay.ignoredTruncatedTail = true ↔ torn

theorem replayOf_replayed (records : List TrackedOrder) (bytes : ℕ) (torn : Bool) :
    ReplayOf records bytes (torn = true) (replayed records bytes torn) where
  sorted := by
    apply ((KeyedMap.sortedValues_pairwise_le TrackedOrder.orderHash (latestOrders records)).and
      (KeyedMap.sortedValues_keys_ne (latestOrders_keyed records))).imp
    rintro a b ⟨hle, hne⟩
    exact Std.lt_of_le_of_ne hle hne
  latest := by
    intro order
    rw [LastOf, ← lookup_latestOrders]
    exact KeyedMap.mem_sortedValues (latestOrders_keyed records) order
  applied := rfl
  valid := rfl
  tail := Iff.rfl

theorem ReplayOf.congr {records : List TrackedOrder} {bytes : ℕ} {torn torn' : Prop} {replay : JournalReplay}
    (h : ReplayOf records bytes torn replay) (ht : torn ↔ torn') : ReplayOf records bytes torn' replay :=
  ⟨h.sorted, h.latest, h.applied, h.valid, h.tail.trans ht⟩

namespace OrderJournal

variable {journal : OrderJournal}

theorem small_of_encodes (hmax : journal.options.maximumRecordBytes < 2 ^ 32) {order : TrackedOrder}
    (h : Encodes journal.options.maximumRecordBytes order) : (payload order).length < 2 ^ 32 := lt_of_le_of_lt h.2 hmax

theorem torn_of_cut (hmax : journal.options.maximumRecordBytes < 2 ^ 32) {orders : List TrackedOrder} {torn : Bytes}
    (he : ∀ order ∈ orders, Encodes journal.options.maximumRecordBytes order)
    (h : torn = [] ∨ ∃ order tail, orders = order :: tail ∧ torn <+: frame order ∧ torn.length < (frame order).length) :
    journal.Torn torn := by
  rcases h with rfl | ⟨order, tail, rfl, hp, hl⟩
  · exact Or.inl rfl
  · have ho := he order (by simp)
    by_cases h0 : torn = []
    · exact Or.inl h0
    · exact Or.inr (nextFrame_torn ho (small_of_encodes hmax ho) h0 hp hl)

theorem encodes_of_encode {maximum : ℕ} {orders : List TrackedOrder}
    (he : ∀ order ∈ orders, ∃ bytes, encode order maximum = .ok bytes) : ∀ order ∈ orders, Encodes maximum order := by
  intro order ho
  obtain ⟨bytes, hb⟩ := he order ho
  obtain ⟨hf, hl, -⟩ := (encode_ok_iff order maximum bytes).mp hb
  exact ⟨hf, hl⟩

theorem take_file (orders : List TrackedOrder) {n : ℕ} (hn : 8 ≤ n)
    (hlen : n ≤ (fileMagic ++ orders.flatMap frame).length) :
    ∃ complete later torn, orders = complete ++ later ∧
      (fileMagic ++ orders.flatMap frame).take n = fileMagic ++ complete.flatMap frame ++ torn ∧
      n = 8 + (complete.flatMap frame).length + torn.length ∧
      (torn = [] ∨ ∃ order tail, later = order :: tail ∧ torn <+: frame order ∧ torn.length < (frame order).length) := by
  have hm : fileMagic.length = 8 := rfl
  rw [List.length_append, hm] at hlen
  have htake : (fileMagic ++ orders.flatMap frame).take n = fileMagic ++ (orders.flatMap frame).take (n - 8) := by
    rw [List.take_append, List.take_of_length_le (by omega), hm]
  obtain ⟨complete, later, torn, hsplit, hp, ht⟩ := prefix_flatMap frame orders _ (List.take_prefix (n - 8) _)
  refine ⟨complete, later, torn, hsplit, by rw [htake, hp, List.append_assoc], ?_, ht⟩
  have hl := congrArg List.length hp
  rw [List.length_take, List.length_append] at hl
  omega

theorem crash_recovery (journal : OrderJournal) (hu : journal.Usable)
    (hmax : journal.options.maximumRecordBytes < 2 ^ 32) (batches : List (List TrackedOrder))
    (he : ∀ order ∈ batches.flatten, ∃ bytes, encode order journal.options.maximumRecordBytes = .ok bytes) :
    ∃ file, (do journal.initializeFile; journal.appendAll batches) ⟨none, []⟩ = (.ok (), ⟨some file, []⟩) ∧
      ∀ n, 8 ≤ n → n ≤ file.length →
        ∃ complete later replay, batches.flatten = complete ++ later ∧
          8 + (complete.flatMap frame).length ≤ n ∧
          (∀ next rest, later = next :: rest → n < 8 + ((complete ++ [next]).flatMap frame).length) ∧
          (journal.replay ⟨some (file.take n), []⟩).1 = .ok replay ∧
          ReplayOf complete (8 + (complete.flatMap frame).length) (n > replay.validBytes) replay ∧
          (journal.replay ⟨some ((file.take n).take replay.validBytes), []⟩).1 =
            .ok { replay with ignoredTruncatedTail := false } ∧
          ∀ more : List (List TrackedOrder),
            (∀ order ∈ more.flatten, ∃ bytes, encode order journal.options.maximumRecordBytes = .ok bytes) →
            ∃ file' replay', journal.appendAll more ⟨some ((file.take n).take replay.validBytes), []⟩ =
                (.ok (), ⟨some file', []⟩) ∧
              (journal.replay ⟨some file', []⟩).1 = .ok replay' ∧
              ReplayOf (complete ++ more.flatten) file'.length False replay' := by
  have he' := encodes_of_encode he
  refine ⟨fileMagic ++ batches.flatten.flatMap frame, ?_, ?_⟩
  · rw [bind_ok (initializeFile_nil hu none), Option.getD_none, appendAll_nil hu batches he']
  intro n hn hlen
  obtain ⟨complete, later, torn, hsplit, htake, hn', ht⟩ := take_file batches.flatten hn hlen
  have hec : ∀ order ∈ complete, Encodes journal.options.maximumRecordBytes order :=
    fun o ho => he' o (by rw [hsplit]; exact List.mem_append_left _ ho)
  have hel : ∀ order ∈ later, Encodes journal.options.maximumRecordBytes order :=
    fun o ho => he' o (by rw [hsplit]; exact List.mem_append_right _ ho)
  obtain ⟨values, hholds, hvalues⟩ := holds_magic.append complete hec (fun o ho => small_of_encodes hmax (hec o ho))
  rw [List.map_nil, List.nil_append] at hvalues
  have hgood : (fileMagic ++ complete.flatMap frame).length = 8 + (complete.flatMap frame).length := List.length_append
  have hreplay := hholds.replay (torn_of_cut hmax hel ht)
  rw [hvalues] at hreplay
  have hcut : (fileMagic ++ complete.flatMap frame ++ torn).take (fileMagic ++ complete.flatMap frame).length =
      fileMagic ++ complete.flatMap frame := List.take_left' rfl
  refine ⟨complete, later, replayed complete (fileMagic ++ complete.flatMap frame).length (decide (torn ≠ [])), hsplit,
    by omega, ?_, ?_, ?_, ?_, ?_⟩
  · rintro next rest rfl
    rw [List.flatMap_append, List.length_append, List.flatMap_singleton]
    rcases ht with rfl | ⟨order, tail, hcons, -, hlt⟩
    · rw [frame_length]
      simp only [List.length_nil] at hn'
      omega
    · cases hcons
      omega
  · rw [htake, replay_apply _ _ hreplay]
  · rw [← hgood]
    have htail : torn ≠ [] ↔ n > (fileMagic ++ complete.flatMap frame).length := by
      rw [hgood, ← List.length_pos_iff]
      omega
    refine (replayOf_replayed complete _ (decide (torn ≠ []))).congr ?_
    rw [decide_eq_true_eq]
    exact htail
  · rw [htake, replayed, hcut]
    have hclean := hholds.replay (Or.inl (rfl : ([] : Bytes) = []))
    rw [List.append_nil, hvalues] at hclean
    rw [replay_apply _ _ hclean]
    rfl
  · intro more hmore
    rw [htake, replayed, hcut]
    have hmore' := encodes_of_encode hmore
    obtain ⟨values', hholds', hvalues'⟩ := hholds.append more.flatten hmore' (fun o ho => small_of_encodes hmax (hmore' o ho))
    have hafter := hholds'.replay (Or.inl (rfl : ([] : Bytes) = []))
    rw [List.append_nil, hvalues', hvalues] at hafter
    refine ⟨_, _, appendAll_nil hu more hmore' _, by rw [replay_apply _ _ hafter], ?_⟩
    exact (replayOf_replayed (complete ++ more.flatten) _ _).congr (by simp)

def sampleJournal : OrderJournal := ⟨ascii "orders.journal", ⟨64 * 1024, true⟩⟩

theorem sampleJournal_usable : sampleJournal.Usable := ⟨by decide, by decide⟩

theorem sample_encodes : ∃ bytes, encode (submitted sampleHash tenShares) sampleJournal.options.maximumRecordBytes = .ok bytes :=
  ⟨_, (encode_ok_iff _ _ _).mpr ⟨by decide, by decide, rfl⟩⟩

theorem crash_recovery_torn_first_record :
    ∃ file replay, (do sampleJournal.initializeFile; sampleJournal.appendAll [[submitted sampleHash tenShares]])
        ⟨none, []⟩ = (.ok (), ⟨some file, []⟩) ∧
      (sampleJournal.replay ⟨some (file.take 10), []⟩).1 = .ok replay ∧ replay.recordsApplied = 0 ∧
      replay.ignoredTruncatedTail = true := by
  obtain ⟨file, happend, hcut⟩ := crash_recovery sampleJournal sampleJournal_usable (by decide)
    [[submitted sampleHash tenShares]] (by simpa using sample_encodes)
  have hfile : file = fileMagic ++ frame (submitted sampleHash tenShares) := by
    rw [bind_ok (initializeFile_nil sampleJournal_usable none), appendAll_nil sampleJournal_usable _
      (encodes_of_encode (by simpa using sample_encodes))] at happend
    cases happend
    simp
  obtain ⟨complete, later, replay, -, hc, -, hr, hreplay, -⟩ := hcut 10 (by omega) (by
    rw [hfile, List.length_append, frame_length, payload_length]
    omega)
  have h0 : (complete.flatMap frame).length ≤ 2 := by omega
  have hnil : complete = [] := by
    cases complete with
    | nil => rfl
    | cons order rest =>
      rw [List.flatMap_cons, List.length_append, frame_length] at h0
      omega
  subst hnil
  refine ⟨file, replay, happend, hr, hreplay.applied, hreplay.tail.mpr ?_⟩
  rw [hreplay.valid]
  decide

end OrderJournal

end PredictFun.Lifecycle
