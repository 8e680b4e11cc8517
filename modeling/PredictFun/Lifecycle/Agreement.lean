import PredictFun.Lifecycle.Host

namespace PredictFun.Lifecycle

open Base Storage

def Command.batch : Command → Bool
  | .requireReconciliation _ | .reconcile _ _ => true
  | _ => false

/-- If the batch of an operation stops at an order that cannot be encoded, the orders before it in the batch are left
as they are by the operation. -/
def Command.AllOrNothing (maximum : ℕ) (t : OrderTracker) (command : Command) : Prop :=
  command.batch = true → ∀ first, t.find first.orderHash = some first →
    ¬Encodes maximum (command.update first.orderHash first) →
    (∀ order, t.find order.orderHash = some order → order.orderHash < first.orderHash →
      Encodes maximum (command.update order.orderHash order)) →
    ∀ order, t.find order.orderHash = some order → order.orderHash < first.orderHash →
      command.update order.orderHash order = order

theorem Command.update_hash (command : Command) (hash : Bytes) (order : TrackedOrder) :
    (command.update hash order).orderHash = order.orderHash := by
  cases command with
  | beginSubmission target amount => rfl
  | applyCreateOutcome target outcome =>
    rw [Command.update]
    split_ifs
    · cases h : createOutcome outcome order with
      | error error => rfl
      | ok changed => exact createOutcome_hash h
    · rfl
  | markSubmissionRejected target error =>
    rw [Command.update]
    split_ifs
    · rcases h : submissionRejected error order with failure | _ | changed
      · rfl
      · rfl
      · exact submissionRejected_hash h
    · rfl
  | applyRestOrder record =>
    rw [Command.update]
    split_ifs
    · exact restOrder_hash record order
    · rfl
  | applyWalletEvent event =>
    rw [Command.update]
    split_ifs
    · exact walletEvent_hash event order
    · rfl
  | markBookRemoved target =>
    rw [Command.update]
    split_ifs <;> rfl
  | requireReconciliation streamGeneration => exact OrderTracker.quarantined_hash streamGeneration order
  | reconcile streamGeneration snapshot =>
    rw [Command.update, reconciled]
    split
    · exact OrderTracker.quarantined_hash streamGeneration order
    · exact restOrder_hash _ order

namespace OrderTracker

theorem snapshot_sorted (t : OrderTracker) : t.snapshot.Pairwise (fun a b => a.orderHash < b.orderHash) := by
  apply ((KeyedMap.sortedValues_pairwise_le TrackedOrder.orderHash t.orders).and t.snapshot_hashes_ne).imp
  rintro a b ⟨hle, hne⟩
  exact Std.lt_of_le_of_ne hle hne

variable {t next : OrderTracker} {command : Command}

theorem plan_batch {records : List TrackedOrder}
    (h : t.plan command = .ok (some records, next)) (hb : command.batch = true) :
    records = next.snapshot ∧ ∀ hash, next.find hash = (t.find hash).map (command.update hash) := by
  cases command with
  | requireReconciliation streamGeneration =>
    cases h
    exact ⟨rfl, find_requireReconciliation streamGeneration t⟩
  | reconcile streamGeneration snapshot =>
    cases h
    exact ⟨rfl, find_reconcile streamGeneration snapshot t⟩
  | _ => cases hb

theorem toList_length (order : Option TrackedOrder) : order.toList.length ≤ 1 := by
  cases order <;> simp

theorem plan_single {records : List TrackedOrder}
    (h : t.plan command = .ok (some records, next)) (hb : command.batch = false) : records.length ≤ 1 := by
  cases command with
  | requireReconciliation streamGeneration => cases hb
  | reconcile streamGeneration snapshot => cases hb
  | beginSubmission hash amount =>
    obtain ⟨r, -, he⟩ := Result.ok_of_map h
    cases he
    exact le_rfl
  | markSubmissionRejected hash error =>
    obtain ⟨⟨changed, u⟩, -, he⟩ := Result.ok_of_map h
    cases changed with
    | false => cases he
    | true =>
      cases he
      exact toList_length _
  | _ =>
    obtain ⟨u, -, he⟩ := Result.ok_of_map h
    cases he
    exact toList_length _

theorem mem_snapshot_update
    (hn : ∀ hash, next.find hash = (t.find hash).map (command.update hash)) (changed : TrackedOrder) :
    changed ∈ next.snapshot ↔
      ∃ order, t.find order.orderHash = some order ∧ changed = command.update order.orderHash order := by
  rw [mem_snapshot, hn, Option.map_eq_some_iff]
  constructor
  · rintro ⟨order, hf, he⟩
    have hh : order.orderHash = changed.orderHash := find_hash hf
    exact ⟨order, by rw [hh]; exact hf, by rw [hh, he]⟩
  · rintro ⟨order, hf, rfl⟩
    exact ⟨order, by rw [command.update_hash]; exact hf, by rw [command.update_hash]⟩

theorem encodable_unchanged_iff {maximum : ℕ} (hb : command.batch = true)
    (hn : ∀ hash, next.find hash = (t.find hash).map (command.update hash))
    (hfail : ¬∀ order ∈ next.snapshot, Encodes maximum order) :
    (∀ order ∈ encodable maximum next.snapshot, t.find order.orderHash = some order) ↔
      command.AllOrNothing maximum t := by
  have hmem := mem_snapshot_update hn
  constructor
  · intro h _ first _ _ hbefore order ho hlt
    have hin : command.update order.orderHash order ∈ encodable maximum next.snapshot := by
      rw [encodable, KeyedMap.mem_takeWhile_sorted (fun _ _ hab hba => Std.lt_irrefl (Std.lt_trans hab hba)) _ next.snapshot_sorted]
      refine ⟨(hmem _).mpr ⟨order, ho, rfl⟩, by simpa using hbefore order ho hlt, fun other hother hless => ?_⟩
      obtain ⟨source, hs, rfl⟩ := (hmem other).mp hother
      rw [command.update_hash, command.update_hash] at hless
      simpa using hbefore source hs (Std.lt_trans hless hlt)
    have hkept := h _ hin
    rw [command.update_hash, ho] at hkept
    exact (Option.some.inj hkept).symm
  · intro h changed hchanged
    -- the batch stops at the head of what `takeWhile` leaves
    have hsplit := List.takeWhile_append_dropWhile (p := fun order => decide (Encodes maximum order)) (l := next.snapshot)
    have hsorted := next.snapshot_sorted
    cases hd : next.snapshot.dropWhile (fun order => decide (Encodes maximum order)) with
    | nil =>
      rw [hd, List.append_nil, List.takeWhile_eq_self_iff] at hsplit
      exact absurd (by simpa using hsplit) hfail
    | cons stop rest =>
      have hstop : ¬Encodes maximum stop := by
        have := List.head_dropWhile_not (fun order => decide (Encodes maximum order))
          (l := next.snapshot) (by rw [hd]; simp)
        simpa [hd] using this
      rw [hd] at hsplit
      rw [← hsplit] at hsorted
      obtain ⟨-, hrest, hbefore⟩ := List.pairwise_append.mp hsorted
      obtain ⟨first, hfirst, rfl⟩ := (hmem stop).mp (by rw [← hsplit]; simp)
      obtain ⟨order, ho, rfl⟩ := (hmem changed).mp (mem_encodable hchanged).1
      have hlt : order.orderHash < first.orderHash := by
        have := hbefore _ hchanged _ List.mem_cons_self
        rwa [command.update_hash, command.update_hash] at this
      rw [h hb first hfirst hstop ?_ order ho hlt]
      · exact ho
      · intro other hother hless
        have hin : command.update other.orderHash other ∈ next.snapshot := (hmem _).mpr ⟨other, hother, rfl⟩
        rw [← hsplit, List.mem_append, List.mem_cons] at hin
        rcases hin with hin | hin | hin
        · simpa using List.mem_takeWhile_imp hin
        · have := congrArg TrackedOrder.orderHash hin
          rw [command.update_hash, command.update_hash] at this
          exact absurd hless (by rw [this]; exact Std.lt_irrefl)
        · have := (List.pairwise_cons.mp hrest).1 _ hin
          rw [command.update_hash, command.update_hash] at this
          exact absurd (Std.lt_trans hless this) Std.lt_irrefl

end OrderTracker

namespace Host

def Consistent (s : Host) : Prop :=
  ∀ p, s.tracker = some p →
    ∃ replay, (p.journal.replay ⟨s.file, []⟩).1 = .ok replay ∧ replay.orders = p.tracker.snapshot

def Synced (s : Host) : Prop :=
  ∀ p, s.tracker = some p → p.journal.options.maximumRecordBytes < 2 ^ 32 ∧ p.journal.Usable ∧
    ∃ f, s.file = some f ∧ p.journal.Agrees f p.tracker

def Atomic (s : Host) (step : Step) : Prop :=
  match step.act, s.tracker with
  | .execute command, some p => command.AllOrNothing p.journal.options.maximumRecordBytes p.tracker
  | _, _ => True

def Plain (step : Step) : Prop :=
  step.faults = [] ∧ ∀ journal, step.act = .open journal → journal.options.maximumRecordBytes < 2 ^ 32

theorem Synced.consistent {s : Host} (h : s.Synced) : s.Consistent := by
  intro p hp
  obtain ⟨-, -, f, hf, ha⟩ := h p hp
  obtain ⟨replay, hr, ho⟩ := ha.snapshot
  exact ⟨replay, by rw [hf, OrderJournal.replay_apply f replay hr], ho⟩

theorem open_synced (journal : OrderJournal) (hmax : journal.options.maximumRecordBytes < 2 ^ 32) (file : Option Bytes) :
    (opened (PersistentOrderTracker.open journal ⟨file, []⟩)).Synced := by
  rcases h : PersistentOrderTracker.open journal ⟨file, []⟩ with ⟨p | error | _, w⟩
  · rintro p' hp
    cases hp
    obtain ⟨f, rfl, hu, ha⟩ := open_agrees h
    obtain ⟨-, -, -, -, -, -, -, -, hj, -⟩ := open_ok h
    exact ⟨by rw [hj]; exact hmax, hu, f, rfl, ha⟩
  · rintro p' hp
    cases hp
  · rintro p' hp
    cases hp

variable {p : PersistentOrderTracker} {f : Bytes}

theorem stopped_consistent_iff {records : List TrackedOrder}
    (hmax : p.journal.options.maximumRecordBytes < 2 ^ 32) (ha : p.journal.Agrees f p.tracker)
    (hd : records.Pairwise (fun a b => a.orderHash ≠ b.orderHash))
    (he : ∀ order ∈ records, Encodes p.journal.options.maximumRecordBytes order) :
    ((⟨some (f ++ records.flatMap frame), some p⟩ : Host).Consistent ↔
        ∀ order ∈ records, p.tracker.find order.orderHash = some order) ∧
      ((∀ order ∈ records, p.tracker.find order.orderHash = some order) →
        p.journal.Agrees (f ++ records.flatMap frame) p.tracker) := by
  have hs : ∀ order ∈ records, (payload order).length < 2 ^ 32 :=
    fun order ho => OrderJournal.small_of_encodes hmax (he order ho)
  have hagree : (∀ order ∈ records, p.tracker.find order.orderHash = some order) →
      p.journal.Agrees (f ++ records.flatMap frame) p.tracker :=
    fun h => ha.append ⟨h, fun _ _ => rfl, hd⟩ he hs
  refine ⟨⟨fun hc order ho => ?_, fun h => ?_⟩, hagree⟩
  · obtain ⟨replay, hr, horders⟩ := hc p rfl
    obtain ⟨values, hh, hl⟩ := ha
    obtain ⟨values', hh', hv⟩ := hh.append records he hs
    have hreplay := hh'.replay (Or.inl (rfl : ([] : Bytes) = []))
    rw [List.append_nil, hv] at hreplay
    rw [OrderJournal.replay_apply _ _ hreplay] at hr
    cases hr
    rw [← OrderTracker.mem_snapshot, ← horders]
    refine (KeyedMap.mem_sortedValues (latestOrders_keyed _) order).mpr ?_
    rw [OrderJournal.lookup_latest_batch p.tracker hl hd, OrderJournal.find_distinct hd ho, Option.some_or]
  · intro p' hp
    cases hp
    obtain ⟨replay, hr, ho⟩ := (hagree h).snapshot
    exact ⟨replay, by rw [OrderJournal.replay_apply _ replay hr], ho⟩

theorem synced_of_agrees
    (hmax : p.journal.options.maximumRecordBytes < 2 ^ 32) (hu : p.journal.Usable) (ha : p.journal.Agrees f p.tracker) :
    (⟨some f, some p⟩ : Host).Synced := by
  intro p' hp
  cases hp
  exact ⟨hmax, hu, f, rfl, ha⟩

theorem execute_synced (command : Command)
    (hmax : p.journal.options.maximumRecordBytes < 2 ^ 32) (hu : p.journal.Usable) (ha : p.journal.Agrees f p.tracker) :
    (command.AllOrNothing p.journal.options.maximumRecordBytes p.tracker →
        (executed p (p.execute command ⟨some f, []⟩)).Synced) ∧
      ((executed p (p.execute command ⟨some f, []⟩)).Consistent →
        command.AllOrNothing p.journal.options.maximumRecordBytes p.tracker) := by
  obtain ⟨error, hplan, he⟩ | ⟨next, hplan, he⟩ | ⟨records, next, hplan, ⟨hall, he⟩ | ⟨hfail, error, he⟩⟩ :=
    PersistentOrderTracker.execute_nil hu command f
  · rw [he]
    refine ⟨fun _ => synced_of_agrees hmax hu ha, fun _ hb => ?_⟩
    cases command <;> cases hb <;> cases hplan
  · rw [he]
    refine ⟨fun _ => synced_of_agrees hmax hu ha, fun _ hb => ?_⟩
    cases command <;> cases hb <;> cases hplan
  · rw [he]
    obtain ⟨hn, -⟩ | ⟨orders, horders, hplanned⟩ := OrderTracker.plan_ok hplan
    · cases hn
    cases horders
    have hs : ∀ order ∈ records, (payload order).length < 2 ^ 32 :=
      fun order ho => OrderJournal.small_of_encodes hmax (hall order ho)
    refine ⟨fun _ => synced_of_agrees hmax hu (ha.append hplanned hall hs), fun _ hb first hfirst hstop => ?_⟩
    obtain ⟨rfl, hnext⟩ := OrderTracker.plan_batch hplan hb
    exact absurd (hall _ ((OrderTracker.mem_snapshot_update hnext _).mpr ⟨first, hfirst, rfl⟩)) hstop
  · rw [he]
    cases hb : command.batch with
    | false =>
      rw [encodable_single (OrderTracker.plan_single hplan hb) hfail, List.flatMap_nil, List.append_nil]
      refine ⟨fun _ => synced_of_agrees hmax hu ha, fun _ hbatch => ?_⟩
      rw [hb] at hbatch
      cases hbatch
    | true =>
      obtain ⟨rfl, hnext⟩ := OrderTracker.plan_batch hplan hb
      obtain ⟨hiff, hagree⟩ := stopped_consistent_iff hmax ha
        (next.snapshot_hashes_ne.sublist (List.takeWhile_prefix _).sublist) (fun order ho => (mem_encodable ho).2)
      rw [← OrderTracker.encodable_unchanged_iff hb hnext hfail]
      exact ⟨fun h => synced_of_agrees hmax hu (hagree h), fun hc => hiff.mp hc⟩

theorem step_synced {s : Host} {step : Step} (hs : s.Synced) (hp : Plain step) :
    (s.Atomic step → (s.step step).Synced) ∧ ((s.step step).Consistent → s.Atomic step) := by
  obtain ⟨act, faults⟩ := step
  obtain ⟨rfl, hmax⟩ := hp
  cases act with
  | «open» journal => exact ⟨fun _ => open_synced journal (hmax journal rfl) s.file, fun _ => trivial⟩
  | close =>
    refine ⟨fun _ p hp => ?_, fun _ => trivial⟩
    cases hp
  | execute command =>
    obtain ⟨file, tracker⟩ := s
    cases tracker with
    | none => exact ⟨fun _ => hs, fun _ => trivial⟩
    | some p =>
      obtain ⟨hm, hu, f, hf, ha⟩ := hs p rfl
      cases hf
      exact execute_synced command hm hu ha

theorem along_atomic_iff (file : Option Bytes) (steps : List Step) (hp : ∀ step ∈ steps, Plain step) :
    (∀ before, before <+: steps → (Runs.run Host.step ⟨file, none⟩ before).Consistent) ↔
      Runs.Along Host.step Atomic ⟨file, none⟩ steps := by
  refine Runs.good_iff Host.step (D := fun _ => Plain) (I := Synced) (fun _ => Synced.consistent)
    (fun s step hs hd => (step_synced hs hd).1) (fun s step hs hd => (step_synced hs hd).2) ?_
    (Runs.along_of_forall Host.step hp _)
  intro p h
  cases h

theorem consistent_iff (file : Option Bytes) (steps : List Step) (hp : ∀ step ∈ steps, Plain step) :
    (∀ before, before <+: steps → (Runs.run Host.step ⟨file, none⟩ before).Consistent) ↔
      ∀ before step, before ++ [step] <+: steps → (Runs.run Host.step ⟨file, none⟩ before).Atomic step := by
  rw [along_atomic_iff file steps hp, Runs.along_iff]

def smallJournal : OrderJournal := ⟨ascii "orders.journal", ⟨128, true⟩⟩

theorem smallJournal_usable : smallJournal.Usable := ⟨by decide, by decide⟩

theorem tenShares_pos : 0 < tenShares.value := (positive_iff tenShares).mp (by decide)

def venueSnapshot : List OrderRecord :=
  [sampleRecord sampleHash ⟨.open, ascii "OPEN"⟩ tenShares .zero,
    sampleRecord otherHash ⟨.unknown, List.replicate 40 (byte 'X')⟩ tenShares .zero]

def stoppedBatch : List Step :=
  [⟨.open smallJournal, []⟩, ⟨.execute (.beginSubmission sampleHash tenShares), []⟩,
    ⟨.execute (.beginSubmission otherHash tenShares), []⟩, ⟨.execute (.reconcile 1 venueSnapshot), []⟩]

def twoSubmitted : PersistentOrderTracker :=
  { freshTracker smallJournal with
    tracker := ((freshTracker smallJournal).tracker.store (submitted sampleHash tenShares)).store
      (submitted otherHash tenShares) }

theorem stoppedBatch_before : ∃ f, Runs.run Host.step ⟨none, none⟩ (stoppedBatch.take 3) = ⟨some f, some twoSubmitted⟩ := by
  simp only [stoppedBatch, List.take_succ_cons, List.take_zero, Runs.run_cons, Runs.run_nil]
  rw [step_open_fresh smallJournal_usable,
    step_execute_ok smallJournal_usable
      (OrderTracker.plan_beginSubmission (by decide +kernel) tenShares_pos (freshTracker_find smallJournal _)) (by decide +kernel),
    step_execute_ok smallJournal_usable
      (OrderTracker.plan_beginSubmission (by decide +kernel) tenShares_pos (by decide +kernel)) (by decide)]
  exact ⟨_, rfl⟩

theorem twoSubmitted_find (order : TrackedOrder) (h : twoSubmitted.tracker.find order.orderHash = some order) :
    order = submitted sampleHash tenShares ∨ order = submitted otherHash tenShares := by
  rw [twoSubmitted, OrderTracker.find_store, OrderTracker.find_store, freshTracker_find] at h
  split_ifs at h
  · exact Or.inr (Option.some.inj h).symm
  · exact Or.inl (Option.some.inj h).symm

theorem stoppedBatch_not_atomic :
    ¬(Command.reconcile 1 venueSnapshot).AllOrNothing smallJournal.options.maximumRecordBytes twoSubmitted.tracker := by
  intro h
  have hchange := h rfl (submitted otherHash tenShares) (by decide) (by decide +kernel) (fun order ho hlt => ?_)
    (submitted sampleHash tenShares) (by decide +kernel) (by decide +kernel)
  · exact absurd hchange (by decide +kernel)
  · obtain rfl | rfl := twoSubmitted_find order ho
    · decide +kernel
    · exact absurd hlt (by decide)

theorem atomic_single {s : Host} {step : Step} (h : ∀ command, step.act = .execute command → command.batch = false) :
    s.Atomic step := by
  unfold Atomic
  split
  next command p hact _ =>
    intro hb
    rw [h command hact] at hb
    cases hb
  · trivial

theorem stoppedBatch_plain : ∀ step ∈ stoppedBatch, Plain step := by
  simp only [stoppedBatch, List.mem_cons, List.not_mem_nil, or_false, forall_eq_or_imp, forall_eq]
  refine ⟨⟨rfl, ?_⟩, ⟨rfl, ?_⟩, ⟨rfl, ?_⟩, ⟨rfl, ?_⟩⟩ <;> intro journal hj <;> cases hj
  decide

theorem consistent_two_submissions : (Runs.run Host.step ⟨none, none⟩ (stoppedBatch.take 3)).Consistent := by
  refine (consistent_iff none (stoppedBatch.take 3)
    (fun step hs => stoppedBatch_plain step (List.mem_of_mem_take hs))).mpr (fun before step hb => atomic_single ?_) _
    (List.prefix_refl _)
  have hin : step ∈ stoppedBatch.take 3 := hb.subset (by simp)
  simp only [stoppedBatch, List.take_succ_cons, List.take_zero, List.mem_cons, List.not_mem_nil, or_false] at hin
  rcases hin with rfl | rfl | rfl <;> intro command hc <;> cases hc <;> rfl

theorem not_consistent :
    ¬∀ (file : Option Bytes) (steps : List Step), (∀ step ∈ steps, Plain step) →
      ∀ before, before <+: steps → (Runs.run Host.step ⟨file, none⟩ before).Consistent := by
  intro h
  have along := (along_atomic_iff none stoppedBatch stoppedBatch_plain).mp (h none stoppedBatch stoppedBatch_plain)
  rw [Runs.along_iff] at along
  have hlast := along (stoppedBatch.take 3) _ (List.prefix_refl stoppedBatch)
  obtain ⟨f, hf⟩ := stoppedBatch_before
  rw [hf] at hlast
  exact stoppedBatch_not_atomic hlast

end Host

end PredictFun.Lifecycle
