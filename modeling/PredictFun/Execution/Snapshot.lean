import PredictFun.Execution.Paging

namespace PredictFun.Execution

open Base Storage Lifecycle Trading

def restState (record : OrderRecord) : OrderLifecycleState :=
  match record.status.value with
  | .open =>
    if zero record.amountFilled then .open
    else if compare record.amountFilled record.amount ≥ 0 then .filled
    else .partiallyFilled
  | .matched => .filled
  | .cancelled => .cancelled
  | .expired => .expired
  | .invalidated | .failed => .rejected
  | .unknown => .unknown

theorem restOrder_state (record : OrderRecord) (tracked : TrackedOrder) :
    (restOrder record tracked).state = restState record := by
  unfold restOrder restState
  cases record.status.value with
  | «open» =>
    dsimp only [deriveFillState]
    split_ifs <;> rfl
  | _ => rfl

theorem restOrder_amount (record : OrderRecord) (tracked : TrackedOrder) :
    (restOrder record tracked).amount = record.amount ∧ (restOrder record tracked).amountFilled = record.amountFilled := by
  unfold restOrder
  cases record.status.value with
  | «open» =>
    dsimp only [deriveFillState]
    split_ifs <;> exact ⟨rfl, rfl⟩
  | _ => exact ⟨rfl, rfl⟩

namespace System

variable (client : Client) (path : Bytes)

/-- When a reconciliation is applied, an order that occurs in its pages has what the last of its records says, whatever
the private stream has said since that page came, and every other order keeps what it had. -/
theorem last_record_prevails (inputs : List Input) (s s' : Session) (index : ℕ) (page : OrdersPage) (faults : List Fault)
    (generation : BitVec 64) (orders : List OrderRecord)
    (hs : (Runs.run (step client path) fresh inputs).session = some s)
    (hc : (Runs.run (step client path) fresh inputs).Carries ⟨.page index (.ok page), faults⟩ (.reconcile generation orders))
    (hs' : (Runs.run (step client path) fresh (inputs ++ [⟨.page index (.ok page), faults⟩])).session = some s') :
    (∃ op pages, s.reconciliations[index]? = some op ∧ op.received = pages.map .ok ∧
      orders = (pages ++ [page]).flatMap OrdersPage.orders) ∧
    ∀ hash order, s.tracker.find hash = some order → ∃ order', s'.tracker.find hash = some order' ∧
      (∀ record, (recordsOf hash orders).getLast? = some record → order'.state = restState record ∧
        order'.amount = record.amount ∧ order'.amountFilled = record.amountFilled) ∧
      (recordsOf hash orders = [] → order'.state = order.state ∧ order'.amount = order.amount ∧
        order'.amountFilled = order.amountFilled) := by
  rw [Runs.run_append] at hs'
  obtain ⟨s₀, hs₀, ht⟩ := hc.after hs'
  rw [hs] at hs₀
  cases hs₀
  constructor
  · obtain ⟨holder, hp⟩ := run_paged client path inputs s hs
    obtain ⟨s₀, -, -, hs₀, hcommand, -⟩ := hc
    rw [hs] at hs₀
    cases hs₀
    obtain ⟨_, op, _, pages, ha, hi, -, hr, -, ho⟩ := hp.reconcile hcommand
    cases ha
    exact ⟨op, pages, hi, hr, ho⟩
  · intro hash order hf
    have hfind : s'.tracker.find hash = some (reconciled generation (recordsOf hash orders) order) := by
      change s'.tracker.tracker.find hash = _
      rw [ht]
      exact OrderTracker.find_after_some (.reconcile generation orders) hf
    refine ⟨_, hfind, fun record hr => ?_, fun hn => ?_⟩
    · rw [reconciled, hr]
      exact ⟨restOrder_state record order, restOrder_amount record order⟩
    · rw [hn, reconciled_nil]
      exact ⟨quarantined_state generation order, quarantined_amount generation order,
        quarantined_amountFilled generation order⟩

open OrderJournal (sampleJournal sampleJournal_usable)

def openRecord : OrderRecord := sampleRecord sampleHash ⟨.open, ascii "OPEN"⟩ tenShares .zero

def firstPage : OrdersPage := ⟨some (ascii "next"), [openRecord]⟩

def lastPage : OrdersPage := ⟨none, []⟩

def filledEvent : WalletEvent := sampleEvent .orderTransactionSuccess tenShares tenShares

def betweenSession : Session :=
  { askingSession with
    reconciliations := [⟨2, .requested (some (ascii "next")), [openRecord], [ascii "next"], 1, true, true,
      [none, some (ascii "next")], [.ok firstPage], [], []⟩] }

def overtaken : List Input := asking ++ [⟨.page 0 (.ok firstPage), []⟩] ++ [⟨.walletEvent filledEvent, []⟩]

def filledOrder : TrackedOrder := walletEvent filledEvent (quarantined 2 (submitted sampleHash tenShares))

theorem run_overtaken : ∃ f s, Runs.run (step sampleClient sampleJournal.path) fresh overtaken = ⟨some f, some s, []⟩ ∧
    s.tracker = { askingSession.tracker with tracker := askingSession.tracker.tracker.store filledOrder } ∧
    s.reconciliations = betweenSession.reconciliations := by
  obtain ⟨f, hasking⟩ := run_asking
  have hbetween : Runs.run (step sampleClient sampleJournal.path) fresh (asking ++ [⟨.page 0 (.ok firstPage), []⟩]) =
      ⟨some f, some betweenSession, []⟩ := by
    rw [Runs.run_append, hasking]
    rfl
  have hplan : askingSession.tracker.tracker.plan (.applyWalletEvent filledEvent) =
      .ok (some [filledOrder], askingSession.tracker.tracker.store filledOrder) :=
    OrderTracker.plan_applyWalletEvent (by decide)
  have hx := PersistentOrderTracker.execute_ok (p := betweenSession.tracker) (f := f) sampleJournal_usable hplan
    (by decide)
  obtain ⟨value, he⟩ := Session.persist_ok (s := betweenSession) (fun changed s =>
    { s with answers := s.answers ++ [do
        let _ ← changed
        s.found filledEvent.orderHash "wallet order disappeared" "order_hash"] }) rfl hx
  obtain ⟨s, hstep, ht, hr⟩ : ∃ s, betweenSession.react sampleClient (.walletEvent filledEvent) ⟨some f, []⟩ =
      (some s, ⟨some (f ++ [filledOrder].flatMap frame), []⟩) ∧
      s.tracker = { askingSession.tracker with tracker := askingSession.tracker.tracker.store filledOrder } ∧
      s.reconciliations = betweenSession.reconciliations := ⟨_, he, rfl, rfl⟩
  refine ⟨f ++ [filledOrder].flatMap frame, s, ?_, ht, hr⟩
  rw [overtaken, Runs.run_append, hbetween, Runs.run_cons, Runs.run_nil, step_react rfl hstep]
  rfl

theorem last_page_executed {s : Session} (f : Bytes) (ht : s.tracker =
    { askingSession.tracker with tracker := askingSession.tracker.tracker.store filledOrder }) :
    s.tracker.execute (.reconcile 2 [openRecord]) ⟨some f, []⟩ =
      (.ok { s.tracker with tracker := (s.tracker.tracker.reconcile 2 [openRecord]).2 },
        ⟨some (f ++ (s.tracker.tracker.reconcile 2 [openRecord]).2.snapshot.flatMap frame), []⟩) := by
  rw [ht]
  exact PersistentOrderTracker.execute_ok sampleJournal_usable rfl (by decide +kernel)

theorem run_last_page : ∃ s s' f, Runs.run (step sampleClient sampleJournal.path) fresh overtaken = ⟨some f, some s, []⟩ ∧
    s.tracker.find sampleHash = some filledOrder ∧
    (Runs.run (step sampleClient sampleJournal.path) fresh overtaken).Carries ⟨.page 0 (.ok lastPage), []⟩
      (.reconcile 2 [openRecord]) ∧
    (Runs.run (step sampleClient sampleJournal.path) fresh (overtaken ++ [⟨.page 0 (.ok lastPage), []⟩])).session = some s' ∧
    s'.tracker.tracker = s.tracker.tracker.after (.reconcile 2 [openRecord]) := by
  obtain ⟨f, s, hrun, ht, hr⟩ := run_overtaken
  have hcommand : s.command (.page 0 (.ok lastPage)) = some (.reconcile 2 [openRecord]) := by
    unfold Session.command
    rw [hr]
    rfl
  have hx := last_page_executed f ht
  have hcarried := Session.react_carried sampleClient s (.page 0 (.ok lastPage)) ⟨some f, []⟩
  rw [hcommand] at hcarried
  obtain ⟨s', hstep, ht'⟩ := hcarried.of_ok hx
  refine ⟨s, s', f, hrun, ?_, ?_, ?_, by rw [ht']; rfl⟩
  · rw [ht]
    decide +kernel
  · rw [hrun]
    exact ⟨s, _, _, rfl, hcommand, hx⟩
  · rw [Runs.run_append, hrun, Runs.run_cons, Runs.run_nil, step_some rfl, hstep]

theorem reconciliation_undoes_fill :
    ∃ s s' order order', (Runs.run (step sampleClient sampleJournal.path) fresh overtaken).session = some s ∧
      s.tracker.find sampleHash = some order ∧ order.state = .filled ∧ order.amountFilled = tenShares ∧
      (Runs.run (step sampleClient sampleJournal.path) fresh (overtaken ++ [⟨.page 0 (.ok lastPage), []⟩])).session =
        some s' ∧
      s'.tracker.find sampleHash = some order' ∧ order'.state = .open ∧ order'.amountFilled = .zero := by
  obtain ⟨s, s', f, hrun, hf, -, hs', ht⟩ := run_last_page
  refine ⟨s, s', filledOrder, reconciled 2 [openRecord] filledOrder, by rw [hrun], hf, by decide +kernel, by decide +kernel,
    hs', ?_, by decide, by decide⟩
  change s'.tracker.tracker.find sampleHash = _
  rw [ht]
  exact OrderTracker.find_after_some (.reconcile 2 [openRecord]) hf

theorem open_record_prevails :
    ∃ s' order', (Runs.run (step sampleClient sampleJournal.path) fresh
        (overtaken ++ [⟨.page 0 (.ok lastPage), []⟩])).session = some s' ∧
      s'.tracker.find sampleHash = some order' ∧ order'.state = restState openRecord := by
  obtain ⟨s, s', f, hrun, hf, hc, hs', -⟩ := run_last_page
  obtain ⟨order', ho, hlast, -⟩ := (last_record_prevails sampleClient sampleJournal.path overtaken s s' 0 lastPage [] 2
    [openRecord] (by rw [hrun]) hc hs').2 sampleHash filledOrder hf
  exact ⟨s', order', hs', ho, (hlast openRecord (by decide)).1⟩

end System

end PredictFun.Execution
