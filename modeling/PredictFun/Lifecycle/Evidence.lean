import PredictFun.Lifecycle.Agreement
import PredictFun.Lifecycle.Terminal

namespace PredictFun.Lifecycle

open Base Storage

def Command.Evidence (hash : Bytes) : Command → Prop
  | .markSubmissionRejected target _ => target = hash
  | .applyRestOrder order => order.order.hash = hash ∧ order.TerminalEvidence
  | .applyWalletEvent event => event.orderHash = hash ∧ event.TerminalEvidence
  | .reconcile _ snapshot => ∃ order ∈ snapshot, order.order.hash = hash ∧ order.TerminalEvidence
  | _ => False

/-- A step brings terminal evidence; a rejection counts only when the operation succeeds. -/
def Host.Evidence (hash : Bytes) (s : Host) (step : Step) : Prop :=
  match step.act with
  | .execute (.markSubmissionRejected target error) =>
    target = hash ∧ ∃ p p' w, s.tracker = some p ∧
      p.execute (.markSubmissionRejected target error) ⟨s.file, step.faults⟩ = (.ok p', w)
  | .execute command => command.Evidence hash
  | _ => False

theorem update_not_terminal {command : Command} {hash : Bytes} {tracked : TrackedOrder} (ht : tracked.terminal = false)
    (he : ¬command.Evidence hash) : (command.update hash tracked).terminal = false := by
  cases command with
  | beginSubmission target amount => exact ht
  | applyCreateOutcome target outcome =>
    rw [Command.update]
    split_ifs
    · cases hc : createOutcome outcome tracked with
      | error error => exact ht
      | ok changed => exact createOutcome_terminal hc
    · exact ht
  | markSubmissionRejected target error =>
    rw [Command.update, if_neg (show ¬target = hash from he)]
    exact ht
  | applyRestOrder order =>
    rw [Command.update]
    split_ifs with hh
    · rw [Bool.eq_false_iff, ne_eq, restOrder_terminal]
      exact fun hv => he ⟨hh, hv⟩
    · exact ht
  | applyWalletEvent event =>
    rw [Command.update]
    split_ifs with hh
    · rw [Bool.eq_false_iff, ne_eq, walletEvent_terminal]
      exact fun hv => he ⟨hh, hv⟩
    · exact ht
  | markBookRemoved target =>
    rw [Command.update]
    split_ifs
    · rfl
    · exact ht
  | requireReconciliation streamGeneration => exact (quarantined_terminal streamGeneration tracked).trans ht
  | reconcile streamGeneration snapshot =>
    rw [Command.update, Bool.eq_false_iff, ne_eq, reconciled_terminal]
    cases hl : (recordsOf hash snapshot).getLast? with
    | none => simp [ht]
    | some order =>
      obtain ⟨hm, hh⟩ := List.mem_filter.mp (List.mem_of_getLast? hl)
      exact fun hv => he ⟨order, hm, by simpa using hh, hv⟩

def Alive (hash : Bytes) (t : OrderTracker) : Prop := ∀ order, t.find hash = some order → order.terminal = false

theorem alive_after {t : OrderTracker} {hash : Bytes} {command : Command} (h : Alive hash t)
    (he : ¬command.Evidence hash) : Alive hash (t.after command) := by
  intro order ho
  cases hf : t.find hash with
  | none =>
    obtain hn | ⟨amount, -, -, -, hs⟩ := OrderTracker.find_after_none command hf
    · rw [hn] at ho
      cases ho
    · rw [hs] at ho
      cases ho
      rfl
  | some tracked =>
    rw [OrderTracker.find_after_some command hf] at ho
    cases ho
    exact update_not_terminal (h tracked hf) he

def Written (file : Option Bytes) (records : List TrackedOrder) : Prop :=
  file.getD fileMagic = fileMagic ++ records.flatMap frame ∧ ∀ order ∈ records, FieldsFit order

theorem Written.append {f : Bytes} {records orders : List TrackedOrder} (h : Written (some f) records)
    (ho : ∀ order ∈ orders, FieldsFit order) : Written (some (f ++ orders.flatMap frame)) (records ++ orders) := by
  have hf : f = fileMagic ++ records.flatMap frame := h.1
  refine ⟨by rw [hf, Option.getD_some, List.flatMap_append, List.append_assoc], fun order hm => ?_⟩
  rcases List.mem_append.mp hm with hm | hm
  · exact h.2 order hm
  · exact ho order hm

namespace Host

def Unsettled (hash : Bytes) (s : Host) : Prop :=
  (∃ records, Written s.file records ∧ ∀ order ∈ records, order.orderHash = hash → order.terminal = false) ∧
    ∀ p, s.tracker = some p → p.journal.Usable ∧ s.file ≠ none ∧ Alive hash p.tracker

variable {command : Command} {hash : Bytes}

theorem unsettled_opened {file : Option Bytes} {records : List TrackedOrder} (journal : OrderJournal)
    (hw : Written file records) (hr : ∀ order ∈ records, order.orderHash = hash → order.terminal = false) :
    Unsettled hash (opened (PersistentOrderTracker.open journal ⟨file, []⟩)) := by
  by_cases hu : journal.Usable
  · have hf : file.getD fileMagic = (fileMagic ++ records.flatMap frame) ++ [] := by rw [List.append_nil, hw.1]
    rcases OrderJournal.replay_or_corrupt journal records hw.2 [] (Or.inl rfl) with ⟨failure, hfail⟩ | ⟨values, hh, hv, ht⟩
    · rw [← hf] at hfail
      rw [open_unreadable hu hfail]
      exact ⟨⟨records, hw, hr⟩, fun p hp => by cases hp⟩
    · cases hrec : recover (replayed (values.map Frame.order) (fileMagic ++ records.flatMap frame).length (decide ([] ≠ []))) with
      | error error =>
        rw [open_unrecovered hu hf hh ht hrec]
        exact ⟨⟨records, ⟨rfl, hw.2⟩, hr⟩, fun p hp => by cases hp⟩
      | ok t =>
        rw [open_recovered hu hf hh ht hrec]
        have halive : Alive hash t := by
          intro order ho
          rw [recover_ok hrec, Option.map_eq_some_iff] at ho
          obtain ⟨record, hl, rfl⟩ := ho
          rw [quarantined_terminal]
          refine hr record ?_ (latestOrders_keyed _ hash record hl)
          rw [← hv]
          exact OrderJournal.mem_of_lookup_latest hl
        refine ⟨⟨records ++ t.snapshot, ?_, ?_⟩, ?_⟩
        · have hw' : Written (some (fileMagic ++ records.flatMap frame)) records := ⟨rfl, hw.2⟩
          exact hw'.append (fun order ho => (recovered_encodes hh hrec order ho).1.1)
        · intro order hm hh'
          rcases List.mem_append.mp hm with hm | hm
          · exact hr order hm hh'
          · exact halive order (by rw [← hh']; exact (t.mem_snapshot order).mp hm)
        · intro p hp
          cases hp
          exact ⟨hu, by simp [opened], halive⟩
  · obtain ⟨error, he⟩ := open_unusable hu ⟨file, []⟩
    rw [he]
    exact ⟨⟨records, hw, hr⟩, fun p hp => by cases hp⟩

theorem evidence_of_ok {p p' : PersistentOrderTracker} {f : Bytes} {w : World Byte}
    (hx : p.execute command ⟨some f, []⟩ = (.ok p', w)) (he : command.Evidence hash) :
    Evidence hash ⟨some f, some p⟩ ⟨.execute command, []⟩ := by
  cases command with
  | markSubmissionRejected target error => exact ⟨he, p, p', w, rfl, hx⟩
  | _ => exact he

theorem evidence_of_batch {s : Host} {faults : List Fault} (hb : command.batch = true)
    (he : command.Evidence hash) : Evidence hash s ⟨.execute command, faults⟩ := by
  cases command with
  | requireReconciliation streamGeneration => exact he
  | reconcile streamGeneration snapshot => exact he
  | _ => cases hb

theorem unsettled_executed {p : PersistentOrderTracker} {f : Bytes}
    {records : List TrackedOrder} (hu : p.journal.Usable) (ha : Alive hash p.tracker) (hw : Written (some f) records)
    (hr : ∀ order ∈ records, order.orderHash = hash → order.terminal = false)
    (he : ¬Evidence hash ⟨some f, some p⟩ ⟨.execute command, []⟩) :
    Unsettled hash (executed p (p.execute command ⟨some f, []⟩)) := by
  have stay : Unsettled hash ⟨some f, some p⟩ := by
    refine ⟨⟨records, hw, hr⟩, fun p' hp => ?_⟩
    cases hp
    exact ⟨hu, by simp, ha⟩
  obtain ⟨error, hplan, hx⟩ | ⟨next, hplan, hx⟩ | ⟨orders, next, hplan, hx⟩ :=
    PersistentOrderTracker.execute_nil hu command f
  · rw [hx]
    exact stay
  · rw [hx]
    exact stay
  · obtain ⟨hn, -⟩ | ⟨orders', horders, hplanned⟩ := OrderTracker.plan_ok hplan
    · cases hn
    cases horders
    have grow : Alive hash next → ∀ written, written <+: orders →
        (∀ order ∈ written, Encodes p.journal.options.maximumRecordBytes order) →
        ∃ records, Written (some (f ++ written.flatMap frame)) records ∧
          ∀ order ∈ records, order.orderHash = hash → order.terminal = false := by
      intro hnext written hsub hfits
      refine ⟨records ++ written, hw.append (fun order ho => (hfits order ho).1), fun order hm hh => ?_⟩
      rcases List.mem_append.mp hm with hm | hm
      · exact hr order hm hh
      · exact hnext order (by rw [← hh]; exact hplanned.stored order (hsub.subset hm))
    obtain ⟨hall, hx⟩ | ⟨hfail, error, hx⟩ := hx
    · rw [hx]
      have hnext : Alive hash next := by
        rw [← OrderTracker.after_plan_ok hplan]
        exact alive_after ha (fun hv => he (evidence_of_ok hx hv))
      refine ⟨grow hnext orders (List.prefix_refl _) hall, fun p' hp => ?_⟩
      cases hp
      exact ⟨hu, by simp [executed], hnext⟩
    · rw [hx]
      cases hb : command.batch with
      | false =>
        rw [encodable_single (OrderTracker.plan_single hplan hb) hfail, List.flatMap_nil, List.append_nil]
        exact stay
      | true =>
        have hnext : Alive hash next := by
          rw [← OrderTracker.after_plan_ok hplan]
          exact alive_after ha (fun hv => he (evidence_of_batch hb hv))
        refine ⟨grow hnext _ (List.takeWhile_prefix _) (fun order ho => (mem_encodable ho).2), fun p' hp => ?_⟩
        cases hp
        exact ⟨hu, by simp [executed], ha⟩

theorem step_unsettled {s : Host} {step : Step} (hs : s.Unsettled hash) (hf : step.faults = [])
    (he : ¬s.Evidence hash step) : (s.step step).Unsettled hash := by
  obtain ⟨act, faults⟩ := step
  cases hf
  obtain ⟨⟨records, hw, hr⟩, hrunning⟩ := hs
  cases act with
  | «open» journal => exact unsettled_opened journal hw hr
  | close => exact ⟨⟨records, hw, hr⟩, fun p hp => by cases hp⟩
  | execute command =>
    obtain ⟨file, tracker⟩ := s
    cases tracker with
    | none => exact ⟨⟨records, hw, hr⟩, hrunning⟩
    | some p =>
      obtain ⟨hu, hne, ha⟩ := hrunning p rfl
      obtain ⟨f, rfl⟩ := Option.ne_none_iff_exists'.mp hne
      exact unsettled_executed hu ha hw hr he

theorem not_terminal_without_evidence (hash : Bytes) (steps : List Step) (hf : ∀ step ∈ steps, step.faults = [])
    (he : ∀ before step, before ++ [step] <+: steps → ¬(Runs.run Host.step ⟨none, none⟩ before).Evidence hash step)
    (p : PersistentOrderTracker) (order : TrackedOrder) (hp : (Runs.run Host.step ⟨none, none⟩ steps).tracker = some p)
    (ho : p.find hash = some order) : order.terminal = false ∧ order.safeToRebuildWithNewNonce = false := by
  have hstart : Unsettled hash ⟨none, none⟩ := by
    refine ⟨⟨[], ⟨(List.append_nil _).symm, by simp⟩, by simp⟩, fun p hp => ?_⟩
    cases hp
  have halong : Runs.Along Host.step (fun s step => step.faults = [] ∧ ¬s.Evidence hash step) ⟨none, none⟩ steps := by
    rw [Runs.along_iff]
    exact fun before step hb => ⟨hf step (hb.subset (by simp)), he before step hb⟩
  have hend := Runs.run_invariant Host.step (fun s step hs hq => step_unsettled hs hq.1 hq.2) hstart halong
  have hterminal : order.terminal = false := (hend.2 p hp).2.2 order ho
  refine ⟨hterminal, Bool.eq_false_iff.mpr (fun hsafe => ?_)⟩
  rw [TrackedOrder.safe_terminal order hsafe] at hterminal
  cases hterminal

def lostResponse : MutationOutcome CreateOrderReceipt :=
  ⟨.ambiguous, none, some ⟨.ambiguousSubmission, ascii "connection reset", [], 0, 0⟩, sampleHash⟩

def lostResponseHistory : List Step :=
  [⟨.open OrderJournal.sampleJournal, []⟩, ⟨.execute (.beginSubmission sampleHash tenShares), []⟩,
    ⟨.execute (.applyCreateOutcome sampleHash lostResponse), []⟩]

def unresolved : TrackedOrder :=
  { submitted sampleHash tenShares with
    state := .ambiguous
    reconciliationRequired := true
    reason := ascii "connection reset" }

theorem lostResponseHistory_end :
    ∃ p, (Runs.run Host.step ⟨none, none⟩ lostResponseHistory).tracker = some p ∧ p.find sampleHash = some unresolved := by
  have hu := OrderJournal.sampleJournal_usable
  simp only [lostResponseHistory, Runs.run_cons, Runs.run_nil]
  rw [step_open_fresh hu,
    step_execute_ok hu (OrderTracker.plan_beginSubmission (by decide) tenShares_pos
      (freshTracker_find OrderJournal.sampleJournal _)) (by decide +kernel),
    step_execute_ok hu (OrderTracker.plan_applyCreateOutcome (by rw [OrderTracker.find_store]; exact if_pos rfl)
      (show createOutcome lostResponse (submitted sampleHash tenShares) = .ok unresolved by decide +kernel))
      (by decide +kernel)]
  exact ⟨_, rfl, by rw [PersistentOrderTracker.find, OrderTracker.find_store]; exact if_pos rfl⟩

theorem not_terminal_after_lost_response :
    ∃ p order, (Runs.run Host.step ⟨none, none⟩ lostResponseHistory).tracker = some p ∧ p.find sampleHash = some order ∧
      order.terminal = false ∧ order.safeToRebuildWithNewNonce = false := by
  obtain ⟨p, hp, ho⟩ := lostResponseHistory_end
  refine ⟨p, unresolved, hp, ho, not_terminal_without_evidence sampleHash lostResponseHistory ?_ ?_ p unresolved hp ho⟩
  · simp [lostResponseHistory]
  · intro before step hb
    have hin : step ∈ lostResponseHistory := hb.subset (by simp)
    simp only [lostResponseHistory, List.mem_cons, List.not_mem_nil, or_false] at hin
    rcases hin with rfl | rfl | rfl <;> exact id

end Host

end PredictFun.Lifecycle
