import PredictFun.Base.Runs
import PredictFun.Lifecycle.Opening

namespace PredictFun.Lifecycle

open Base Storage

inductive Act
  | open (journal : OrderJournal)
  | execute (command : Command)
  | close

structure Step where
  act : Act
  faults : List Fault

structure Host where
  file : Option Bytes
  tracker : Option PersistentOrderTracker

namespace Host

def opened (result : Outcome Error PersistentOrderTracker × World Byte) : Host :=
  match result with
  | (.ok p, w) => ⟨w.file, some p⟩
  | (.error _, w) => ⟨w.file, none⟩
  | (.crashed, w) => ⟨w.file, none⟩

/-- A failed operation leaves the tracker as it was; a crash takes it away. -/
def executed (p : PersistentOrderTracker) (result : Outcome Error PersistentOrderTracker × World Byte) : Host :=
  match result with
  | (.ok p', w) => ⟨w.file, some p'⟩
  | (.error _, w) => ⟨w.file, some p⟩
  | (.crashed, w) => ⟨w.file, none⟩

def step (s : Host) (step : Step) : Host :=
  match step.act with
  | .open journal => opened (PersistentOrderTracker.open journal ⟨s.file, step.faults⟩)
  | .execute command =>
    match s.tracker with
    | none => s
    | some p => executed p (p.execute command ⟨s.file, step.faults⟩)
  | .close => ⟨s.file, none⟩

end Host

namespace PersistentOrderTracker

theorem execute_nil {p : PersistentOrderTracker} (hu : p.journal.Usable) (command : Command) (f : Bytes) :
    (∃ error, p.tracker.plan command = .error error ∧ p.execute command ⟨some f, []⟩ = (.error error, ⟨some f, []⟩)) ∨
    (∃ next, p.tracker.plan command = .ok (none, next) ∧ p.execute command ⟨some f, []⟩ = (.ok p, ⟨some f, []⟩)) ∨
    ∃ records next, p.tracker.plan command = .ok (some records, next) ∧
      ((∀ order ∈ records, Encodes p.journal.options.maximumRecordBytes order) ∧
          p.execute command ⟨some f, []⟩ = (.ok { p with tracker := next }, ⟨some (f ++ records.flatMap frame), []⟩) ∨
        (¬∀ order ∈ records, Encodes p.journal.options.maximumRecordBytes order) ∧
          ∃ error, p.execute command ⟨some f, []⟩ = (.error error,
            ⟨some (f ++ (encodable p.journal.options.maximumRecordBytes records).flatMap frame), []⟩)) := by
  rw [execute_eq]
  rcases hplan : p.tracker.plan command with error | ⟨_ | records, next⟩
  · exact Or.inl ⟨error, rfl, rfl⟩
  · exact Or.inr (Or.inl ⟨next, rfl, rfl⟩)
  · refine Or.inr (Or.inr ⟨records, next, rfl, ?_⟩)
    have ha := OrderJournal.append_nil hu (some f) records
    obtain ⟨he, hv⟩ | ⟨he, error, hv⟩ := verdict_render p.journal.options.maximumRecordBytes records
    · rw [hv, encodable_of_all he] at ha
      exact Or.inl ⟨he, by rw [carryOut, bind_ok ha]; rfl⟩
    · rw [hv] at ha
      exact Or.inr ⟨he, error, by rw [carryOut, bind_error ha]; rfl⟩

theorem execute_ok {p : PersistentOrderTracker} {f : Bytes} {command : Command} {records : List TrackedOrder}
    {next : OrderTracker} (hu : p.journal.Usable) (hplan : p.tracker.plan command = .ok (some records, next))
    (he : ∀ order ∈ records, Encodes p.journal.options.maximumRecordBytes order) :
    p.execute command ⟨some f, []⟩ = (.ok { p with tracker := next }, ⟨some (f ++ records.flatMap frame), []⟩) := by
  obtain ⟨error, h, -⟩ | ⟨_, h, -⟩ | ⟨records', next', h, ⟨-, hx⟩ | ⟨hn, -⟩⟩ := execute_nil hu command f
  · rw [hplan] at h
    cases h
  · rw [hplan] at h
    cases h
  · rw [hplan] at h
    cases h
    exact hx
  · rw [hplan] at h
    cases h
    exact absurd he hn

end PersistentOrderTracker

variable {t : OrderTracker} {hash : Bytes}

theorem OrderTracker.plan_beginSubmission {amount : ExactDecimal}
    (hv : validHash hash = true) (ha : 0 < amount.value) (hn : t.find hash = none) :
    t.plan (.beginSubmission hash amount) = .ok (some [submitted hash amount], t.store (submitted hash amount)) := by
  rw [plan, beginSubmission, if_neg (by simp [hv]), if_neg ((positive_iff amount).mpr ha), if_neg (by simp [hn])]
  rfl

theorem OrderTracker.plan_alter {change : TrackedOrder → Result TrackedOrder}
    {tracked changed : TrackedOrder} (hf : t.find hash = some tracked) (hc : change tracked = .ok changed)
    (hh : changed.orderHash = tracked.orderHash) :
    (t.alter hash change).map (fun next => (some (next.find hash).toList, next)) =
      .ok (some [changed], t.store changed) := by
  have hk : hash = changed.orderHash := (hh.trans (find_hash hf)).symm
  rw [alter, hf]
  simp only [hc, Except.map, find_store, if_pos hk, Option.toList_some]

theorem OrderTracker.plan_applyCreateOutcome {tracked changed : TrackedOrder}
    {outcome : MutationOutcome CreateOrderReceipt} (hf : t.find hash = some tracked)
    (hc : createOutcome outcome tracked = .ok changed) :
    t.plan (.applyCreateOutcome hash outcome) = .ok (some [changed], t.store changed) :=
  plan_alter hf hc (createOutcome_hash hc)

theorem OrderTracker.plan_applyRestOrder {order : OrderRecord} {tracked : TrackedOrder}
    (hf : t.find order.order.hash = some tracked) :
    t.plan (.applyRestOrder order) = .ok (some [restOrder order tracked], t.store (restOrder order tracked)) :=
  plan_alter hf rfl (restOrder_hash order tracked)

theorem OrderTracker.plan_applyWalletEvent {event : WalletEvent} {tracked : TrackedOrder}
    (hf : t.find event.orderHash = some tracked) :
    t.plan (.applyWalletEvent event) = .ok (some [walletEvent event tracked], t.store (walletEvent event tracked)) :=
  plan_alter hf rfl (walletEvent_hash event tracked)

def freshTracker (journal : OrderJournal) : PersistentOrderTracker :=
  ⟨journal, OrderTracker.empty.requireReconciliation 1, 0, false⟩

theorem freshTracker_find (journal : OrderJournal) (hash : Bytes) : (freshTracker journal).tracker.find hash = none := rfl

namespace Host

theorem step_open (s : Host) (journal : OrderJournal) (faults : List Fault) :
    s.step ⟨.open journal, faults⟩ = opened (PersistentOrderTracker.open journal ⟨s.file, faults⟩) := rfl

theorem step_execute (file : Option Bytes) (p : PersistentOrderTracker) (command : Command) (faults : List Fault) :
    step ⟨file, some p⟩ ⟨.execute command, faults⟩ = executed p (p.execute command ⟨file, faults⟩) := rfl

theorem open_fresh {journal : OrderJournal} (hu : journal.Usable) :
    PersistentOrderTracker.open journal ⟨none, []⟩ = (.ok (freshTracker journal), ⟨some fileMagic, []⟩) :=
  open_recovered hu (show (none : Option Bytes).getD fileMagic = fileMagic ++ [] from (List.append_nil _).symm)
    OrderJournal.holds_magic (Or.inl rfl) (t := (freshTracker journal).tracker) rfl

theorem step_open_fresh {journal : OrderJournal} (hu : journal.Usable) :
    step ⟨none, none⟩ ⟨.open journal, []⟩ = ⟨some fileMagic, some (freshTracker journal)⟩ := by
  rw [step_open, open_fresh hu]
  rfl

theorem step_execute_ok {p : PersistentOrderTracker} {f : Bytes} {command : Command} {records : List TrackedOrder}
    {next : OrderTracker} (hu : p.journal.Usable) (hplan : p.tracker.plan command = .ok (some records, next))
    (he : ∀ order ∈ records, Encodes p.journal.options.maximumRecordBytes order) :
    step ⟨some f, some p⟩ ⟨.execute command, []⟩ =
      ⟨some (f ++ records.flatMap frame), some { p with tracker := next }⟩ := by
  rw [step_execute, PersistentOrderTracker.execute_ok hu hplan he]
  rfl

end Host

end PredictFun.Lifecycle
