import PredictFun.Lifecycle.Quarantine

namespace PredictFun.Lifecycle

open Base

namespace OrderTracker

variable (streamGeneration : BitVec 64) (t : OrderTracker) (snapshot : List OrderRecord)

def trackedHashes : List Bytes := (snapshot.map (fun record => record.order.hash)).filter (fun hash => (t.find hash).isSome)

def absent (order : TrackedOrder) : Bool := (recordsOf order.orderHash snapshot).isEmpty

theorem count_foldl_observe :
    (snapshot.foldl (observe streamGeneration) ⟨t, [], 0⟩).count = (t.trackedHashes snapshot).length := by
  induction snapshot using List.reverseRecOn with
  | nil => rfl
  | append_singleton snapshot order ih =>
    have hf := find_foldl_observe streamGeneration t snapshot order.order.hash
    have hl : (t.trackedHashes (snapshot ++ [order])).length =
        (t.trackedHashes snapshot).length + if (t.find order.order.hash).isSome then 1 else 0 := by
      simp only [trackedHashes, List.map_append, List.map_singleton, List.filter_append, List.length_append]
      split_ifs with h <;> simp [h]
    rw [List.foldl_append, List.foldl_cons, List.foldl_nil, hl, ← ih]
    generalize snapshot.foldl (observe streamGeneration) ⟨t, [], 0⟩ = s at hf
    cases hs : s.tracker.find order.order.hash with
    | none =>
      rw [hs] at hf
      simp [observe, hs, Option.map_eq_none_iff.mp hf.symm]
    | some tracked =>
      rw [hs] at hf
      obtain ⟨o, ho, -⟩ := Option.map_eq_some_iff.mp hf.symm
      simp [observe, hs, ho]

theorem mem_unresolved (hash : Bytes) :
    hash ∈ (t.reconcile streamGeneration snapshot).1.unresolvedHashes ↔
      ∃ order, t.find hash = some order ∧ order.terminal = false ∧ recordsOf hash snapshot = [] := by
  have hf := find_foldl_observe streamGeneration t snapshot hash
  have hm := mem_foldl_observe streamGeneration t snapshot hash
  unfold reconcile
  dsimp only
  generalize snapshot.foldl (observe streamGeneration) ⟨t, [], 0⟩ = s at hf hm
  simp only [List.mem_map, List.mem_filter, Bool.and_eq_true, Bool.not_eq_eq_eq_not, Bool.not_true, decide_eq_false_iff_not]
  constructor
  · rintro ⟨⟨k, order⟩, ⟨he, hn, ho⟩, rfl⟩
    dsimp only at hn ho hf hm ⊢
    have hs : s.tracker.find k = some order := (KeyedMap.mem_entries_iff _ _ _).mp he
    rw [hs] at hf
    obtain ⟨before, hb, rfl⟩ := Option.map_eq_some_iff.mp hf.symm
    have hr : recordsOf k snapshot = [] := by
      by_contra hr
      exact ho (hm.mpr ⟨by simp [hb], hr⟩)
    rw [hr] at hn
    exact ⟨before, hb, hn, hr⟩
  · rintro ⟨order, ho, hn, hr⟩
    rw [ho, hr] at hf
    exact ⟨⟨hash, order⟩, ⟨(KeyedMap.mem_entries_iff _ _ _).mpr hf, hn, fun h => (hm.mp h).2 hr⟩, rfl⟩

theorem unresolved_nodup : (t.reconcile streamGeneration snapshot).1.unresolvedHashes.Nodup :=
  List.Nodup.sublist (List.Sublist.map _ List.filter_sublist) (AList.keys_nodup _)

theorem snapshot_hashes_nodup : (t.snapshot.map TrackedOrder.orderHash).Nodup :=
  List.pairwise_map.mpr t.snapshot_hashes_ne

theorem snapshot_length : t.snapshot.length = t.size :=
  (KeyedMap.sortedValues_perm _ _).length_eq.trans (List.length_map _)

theorem unresolved_length : (t.reconcile streamGeneration snapshot).1.unresolvedHashes.length =
    (t.snapshot.filter (fun order => !order.terminal && absent snapshot order)).length := by
  have hperm : (t.reconcile streamGeneration snapshot).1.unresolvedHashes.Perm
      ((t.snapshot.filter (fun order => !order.terminal && absent snapshot order)).map TrackedOrder.orderHash) := by
    refine (List.perm_ext_iff_of_nodup (unresolved_nodup streamGeneration t snapshot) ?_).mpr (fun hash => ?_)
    · exact t.snapshot_hashes_nodup.sublist (List.Sublist.map _ List.filter_sublist)
    · rw [mem_unresolved]
      simp only [absent, List.mem_map, List.mem_filter, mem_snapshot, Bool.and_eq_true, List.isEmpty_iff,
        Bool.not_eq_eq_eq_not, Bool.not_true]
      constructor
      · rintro ⟨order, ho, hn, hr⟩
        have hh := find_hash ho
        subst hh
        exact ⟨order, ⟨ho, hn, hr⟩, rfl⟩
      · rintro ⟨order, ⟨ho, hn, hr⟩, rfl⟩
        exact ⟨order, ho, hn, hr⟩
  rw [hperm.length_eq, List.length_map]

theorem mem_trackedHashes (hash : Bytes) :
    hash ∈ t.trackedHashes snapshot ↔ (t.find hash).isSome = true ∧ recordsOf hash snapshot ≠ [] := by
  simp only [trackedHashes, List.mem_filter, List.mem_map, recordsOf, ne_eq, List.filter_eq_nil_iff, decide_eq_true_eq]
  constructor
  · rintro ⟨⟨record, hr, rfl⟩, hs⟩
    exact ⟨hs, fun h => h record hr rfl⟩
  · rintro ⟨hs, h⟩
    push Not at h
    obtain ⟨record, hr, hh⟩ := h
    exact ⟨⟨record, hr, hh⟩, hs⟩

theorem present_length : (t.snapshot.filter (fun order => !absent snapshot order)).length =
    (t.trackedHashes snapshot).dedup.length := by
  have hperm : ((t.snapshot.filter (fun order => !absent snapshot order)).map TrackedOrder.orderHash).Perm
      (t.trackedHashes snapshot).dedup := by
    refine (List.perm_ext_iff_of_nodup ?_ (List.nodup_dedup _)).mpr (fun hash => ?_)
    · exact t.snapshot_hashes_nodup.sublist (List.Sublist.map _ List.filter_sublist)
    · rw [List.mem_dedup, mem_trackedHashes]
      simp only [absent, List.mem_map, List.mem_filter, mem_snapshot, Bool.not_eq_eq_eq_not, Bool.not_true,
        List.isEmpty_eq_false_iff]
      constructor
      · rintro ⟨order, ⟨ho, hr⟩, rfl⟩
        exact ⟨by simp [ho], hr⟩
      · rintro ⟨hs, hr⟩
        obtain ⟨order, ho⟩ := Option.isSome_iff_exists.mp hs
        have hh := find_hash ho
        subst hh
        exact ⟨order, ⟨ho, hr⟩, rfl⟩
  rw [← hperm.length_eq, List.length_map]

theorem trackedHashes_nodup_iff :
    (t.trackedHashes snapshot).Nodup ↔ ∀ hash, (t.find hash).isSome = true → (recordsOf hash snapshot).length ≤ 1 := by
  have hcount (hash : Bytes) : (snapshot.map (fun record => record.order.hash)).count hash =
      (recordsOf hash snapshot).length := by
    rw [List.count, List.countP_map, List.countP_eq_length_filter, recordsOf]
    simp only [Function.comp_def, beq_eq_decide]
  rw [List.nodup_iff_count_le_one]
  constructor
  · intro h hash hs
    rw [← hcount, ← List.count_filter (p := fun hash => (t.find hash).isSome) hs]
    exact h hash
  · intro h hash
    by_cases hs : (t.find hash).isSome = true
    · rw [trackedHashes, List.count_filter (p := fun hash => (t.find hash).isSome) hs, hcount]
      exact h hash hs
    · have hz : (t.trackedHashes snapshot).count hash = 0 :=
        List.count_eq_zero.mpr (fun hm => hs ((mem_trackedHashes t snapshot hash).mp hm).1)
      omega

/-- The numbers of a report add up exactly when no tracked order has two records in the snapshot. -/
theorem report_balances_iff :
    ((t.reconcile streamGeneration snapshot).1.observed ≤ (t.reconcile streamGeneration snapshot).1.tracked ∧
      (t.reconcile streamGeneration snapshot).1.observed +
          (t.reconcile streamGeneration snapshot).1.unresolvedHashes.length +
          (t.snapshot.filter (fun order => order.terminal && absent snapshot order)).length =
        (t.reconcile streamGeneration snapshot).1.tracked) ↔
      ∀ hash, (t.find hash).isSome = true → (recordsOf hash snapshot).length ≤ 1 := by
  have hobserved : (t.reconcile streamGeneration snapshot).1.observed = (t.trackedHashes snapshot).length :=
    count_foldl_observe streamGeneration t snapshot
  have htracked : (t.reconcile streamGeneration snapshot).1.tracked = t.snapshot.length := (snapshot_length t).symm
  -- the tracked orders, by whether they occur in the snapshot, and those that do not by whether they are terminal
  have hsplit := List.length_eq_length_filter_add (l := t.snapshot) (absent snapshot)
  have habsent := List.length_eq_length_filter_add (l := t.snapshot.filter (absent snapshot)) TrackedOrder.terminal
  simp only [List.filter_filter] at habsent
  have hpresent := present_length t snapshot
  have hdedup : (t.trackedHashes snapshot).dedup.length ≤ (t.trackedHashes snapshot).length :=
    (List.dedup_sublist _).length_le
  rw [← trackedHashes_nodup_iff, unresolved_length, hobserved, htracked]
  constructor
  · rintro ⟨-, h⟩
    rw [← List.dedup_eq_self]
    apply (List.dedup_sublist _).eq_of_length_le
    omega
  · intro h
    rw [h.dedup] at hpresent
    omega

/-- When a report is complete, the nonterminal orders that are still quarantined are those whose last record has an
unknown status. -/
theorem complete_required_iff {hash : Bytes} {order : TrackedOrder}
    (h : (t.reconcile streamGeneration snapshot).1.complete = true)
    (hf : (t.reconcile streamGeneration snapshot).2.find hash = some order) (hn : order.terminal = false) :
    order.reconciliationRequired = true ↔
      ∃ record, (recordsOf hash snapshot).getLast? = some record ∧ record.status.value = .unknown := by
  rw [find_reconcile] at hf
  obtain ⟨before, hb, rfl⟩ := Option.map_eq_some_iff.mp hf
  cases hr : (recordsOf hash snapshot).getLast? with
  | none =>
    have hempty := List.getLast?_eq_none_iff.mp hr
    rw [hempty, reconciled_nil, quarantined_terminal] at hn
    have hm := (mem_unresolved streamGeneration t snapshot hash).mpr ⟨before, hb, hn, hempty⟩
    rw [ReconciliationReport.complete, List.isEmpty_iff] at h
    rw [h] at hm
    cases hm
  | some record =>
    rw [reconciled, hr]
    simp [restOrder_required]

def oneOrder : OrderTracker := OrderTracker.empty.store (submitted sampleHash tenShares)

theorem unknown_status_complete :
    (oneOrder.reconcile 1 [sampleRecord sampleHash ⟨.unknown, ascii "HALTED"⟩ tenShares .zero]).1.complete = true ∧
      ((oneOrder.reconcile 1 [sampleRecord sampleHash ⟨.unknown, ascii "HALTED"⟩ tenShares .zero]).2.find sampleHash).map
        (fun order => (order.terminal, order.reconciliationRequired)) = some (false, true) := by
  decide

theorem open_order_released : ∃ order,
    (oneOrder.reconcile 1 [sampleRecord sampleHash ⟨.open, ascii "OPEN"⟩ tenShares .zero]).2.find sampleHash = some order ∧
      order.terminal = false ∧ order.reconciliationRequired = false := by
  have hf : (oneOrder.reconcile 1 [sampleRecord sampleHash ⟨.open, ascii "OPEN"⟩ tenShares .zero]).2.find sampleHash =
      some (reconciled 1 [sampleRecord sampleHash ⟨.open, ascii "OPEN"⟩ tenShares .zero] (submitted sampleHash tenShares)) := by
    decide
  refine ⟨_, hf, by decide +kernel, ?_⟩
  rw [← Bool.not_eq_true]
  intro hr
  obtain ⟨record, hl, hu⟩ := (complete_required_iff 1 oneOrder _ (by decide) hf (by decide)).mp hr
  cases hl
  cases hu

theorem repeated_record_unbalanced :
    (oneOrder.reconcile 1 (List.replicate 2 (sampleRecord sampleHash ⟨.open, ascii "OPEN"⟩ tenShares .zero))).1 =
      ⟨1, 2, []⟩ := by
  decide

end OrderTracker

end PredictFun.Lifecycle
