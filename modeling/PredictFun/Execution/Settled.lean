import PredictFun.Execution.Quarantine

namespace PredictFun.Execution

open Base Storage Lifecycle Trading

def Decided (order : TrackedOrder) : Prop :=
  ¬(order.state = .submissionPending ∧ order.reconciliationRequired = false)

variable {order : TrackedOrder} {hash : Bytes} {p p' : PersistentOrderTracker}

theorem decided_of_state (h : order.state ≠ .submissionPending) : Decided order := fun hp => h hp.1

theorem restOrder_decided (record : OrderRecord) (order : TrackedOrder) : Decided (restOrder record order) := by
  apply decided_of_state
  unfold restOrder
  cases record.status.value with
  | «open» =>
    dsimp only [deriveFillState]
    split_ifs <;> simp
  | _ => simp

theorem walletEvent_decided (event : WalletEvent) (order : TrackedOrder) : Decided (walletEvent event order) := by
  apply decided_of_state
  unfold walletEvent
  cases event.type.value with
  | orderAccepted | orderTransactionSuccess =>
    dsimp only [deriveFillState]
    split_ifs <;> simp
  | _ => simp

theorem createOutcome_decided {outcome : MutationOutcome CreateOrderReceipt} {order changed : TrackedOrder}
    (h : createOutcome outcome order = .ok changed) : Decided changed := by
  apply decided_of_state
  unfold createOutcome at h
  split_ifs at h with ha
  · cases h
    simp
  · cases hr : outcome.receipt with
    | none =>
      simp only [hr] at h
      cases h
    | some receipt =>
      simp only [hr] at h
      split_ifs at h
      · cases h
      · cases h
        simp

theorem submissionRejected_decided (error : Error) (order : TrackedOrder) :
    Decided ((submissionRejected error order).toOption.join.getD order) := by
  apply decided_of_state
  unfold submissionRejected
  by_cases hr : order.state = .rejected
  · rw [if_pos hr]
    change order.state ≠ _
    rw [hr]
    decide
  · rw [if_neg hr]
    by_cases hp : order.state = .submissionPending
    · rw [if_pos hp]
      change OrderLifecycleState.rejected ≠ _
      decide
    · rw [if_neg hp]
      exact hp

theorem quarantined_decided (streamGeneration : BitVec 64) (h : Decided order) :
    Decided (quarantined streamGeneration order) := by
  unfold quarantined
  split_ifs
  · exact h
  · exact fun hp => by simp at hp

theorem update_decided (command : Command) (hash : Bytes) (h : Decided order) :
    Decided (command.update hash order) := by
  cases command with
  | beginSubmission target amount => exact h
  | applyCreateOutcome target outcome =>
    rw [Command.update]
    split_ifs
    · cases hc : createOutcome outcome order with
      | error error => exact h
      | ok changed => exact createOutcome_decided hc
    · exact h
  | markSubmissionRejected target error =>
    rw [Command.update]
    split_ifs
    · exact submissionRejected_decided error order
    · exact h
  | applyRestOrder record =>
    rw [Command.update]
    split_ifs
    · exact restOrder_decided record order
    · exact h
  | applyWalletEvent event =>
    rw [Command.update]
    split_ifs
    · exact walletEvent_decided event order
    · exact h
  | markBookRemoved target =>
    rw [Command.update]
    split_ifs
    · exact fun hp => by simp [bookRemoved] at hp
    · exact h
  | requireReconciliation streamGeneration => exact quarantined_decided streamGeneration h
  | reconcile streamGeneration snapshot =>
    rw [Command.update, reconciled]
    split
    · exact quarantined_decided streamGeneration h
    next record _ => exact fun hp => restOrder_decided record order hp

def Matches (hash : Bytes) (result : Result (MutationOutcome CreateOrderReceipt)) : Prop :=
  ∀ outcome, result = .ok outcome →
    outcome.disposition = .ambiguous ∨ ∃ receipt, outcome.receipt = some receipt ∧ receipt.orderHash = hash

theorem createOutcome_of_matches {outcome : MutationOutcome CreateOrderReceipt}
    (h : Matches order.orderHash (.ok outcome)) : ∃ changed, createOutcome outcome order = .ok changed := by
  obtain ha | ⟨receipt, hr, hh⟩ := h outcome rfl
  · exact ⟨_, if_pos ha⟩
  · unfold createOutcome
    rw [hr]
    split_ifs with ha
    · exact ⟨_, rfl⟩
    · exact ⟨_, if_neg (not_not.mpr hh)⟩

theorem submission_decided {result : Result (MutationOutcome CreateOrderReceipt)}
    (hh : order.orderHash = hash) (h : Matches hash result) :
    Decided ((Session.submissionCommand hash result).update hash order) := by
  cases result with
  | error error =>
    rw [Session.submissionCommand, Command.update, if_pos rfl]
    exact submissionRejected_decided error order
  | ok outcome =>
    obtain ⟨changed, hc⟩ := createOutcome_of_matches (hh ▸ h)
    rw [Session.submissionCommand, Command.update, if_pos rfl, hc]
    exact createOutcome_decided hc

theorem plan_submission {t : OrderTracker} {result : Result (MutationOutcome CreateOrderReceipt)}
    (hf : t.find hash = some order) (hn : ¬Decided order) (h : Matches hash result) :
    ∃ next, t.plan (Session.submissionCommand hash result) =
      .ok (some [(Session.submissionCommand hash result).update hash order], next) := by
  have hh := OrderTracker.find_hash hf
  cases result with
  | error error =>
    have hp : order.state = .submissionPending := (not_not.mp hn).1
    have hc : submissionRejected error order = .ok (some ((submissionRejected error order).toOption.join.getD order)) := by
      rw [submissionRejected, if_neg (by rw [hp]; decide), if_pos hp]
      rfl
    rw [Session.submissionCommand, Command.update, if_pos rfl]
    generalize (submissionRejected error order).toOption.join.getD order = changed at hc
    have hk : hash = changed.orderHash := ((submissionRejected_hash hc).trans hh).symm
    refine ⟨t.store changed, ?_⟩
    rw [OrderTracker.plan, OrderTracker.markSubmissionRejected, hf]
    simp [hc, Except.map, hk]
  | ok outcome =>
    obtain ⟨changed, hc⟩ := createOutcome_of_matches (hh ▸ h)
    rw [Session.submissionCommand, Command.update, if_pos rfl, hc]
    exact ⟨_, OrderTracker.plan_applyCreateOutcome hf hc⟩

namespace SubmitOperation

def begun (op : SubmitOperation) : Bool :=
  match op.stage with
  | .running _ _ | .turnedDown _ => true
  | _ => false

def Accounted (p : PersistentOrderTracker) (op : SubmitOperation) : Prop :=
  match op.stage with
  | .queued _ _ => op.result = none
  | .running _ _ | .turnedDown _ => ∃ order, p.find op.hash = some order ∧ (op.result.isSome = true → Decided order)
  | .ended => True

end SubmitOperation

def Advances (p p' : PersistentOrderTracker) : Prop :=
  ∀ hash order, p.find hash = some order → ∃ order', p'.find hash = some order' ∧ (Decided order → Decided order')

theorem Advances.refl (p : PersistentOrderTracker) : Advances p p := fun _ order hf => ⟨order, hf, fun h => h⟩

theorem Advances.execute {command : Command} {w w' : World Byte}
    (h : p.execute command w = (.ok p', w')) : Advances p p' := by
  intro hash order hf
  refine ⟨command.update hash order, ?_, update_decided command hash⟩
  rw [PersistentOrderTracker.execute_after h]
  exact OrderTracker.find_after_some command hf

theorem SubmitOperation.Accounted.advance {op : SubmitOperation} (h : op.Accounted p)
    (ha : Advances p p') : op.Accounted p' := by
  unfold Accounted at h ⊢
  cases hs : op.stage with
  | queued request deadline =>
    rw [hs] at h
    exact h
  | ended => trivial
  | running mutation operation | turnedDown error =>
    rw [hs] at h
    obtain ⟨order, hf, hd⟩ := h
    obtain ⟨order', hf', hk⟩ := ha op.hash order hf
    exact ⟨order', hf', fun hr => hk (hd hr)⟩

theorem begun_find {amount : ExactDecimal} {w w' : World Byte}
    (h : p.execute (.beginSubmission hash amount) w = (.ok p', w')) : p'.find hash = some (submitted hash amount) := by
  have ha := PersistentOrderTracker.execute_after h
  rw [PersistentOrderTracker.execute_eq] at h
  rcases hb : p.tracker.beginSubmission hash amount with error | ⟨order, next⟩
  · rw [OrderTracker.plan, hb] at h
    cases h
  · have hp : p.tracker.perform (.beginSubmission hash amount) = .ok next := by
      rw [OrderTracker.perform, hb]
      rfl
    obtain ⟨-, -, -, rfl, rfl⟩ := OrderTracker.beginSubmission_ok hb
    rw [ha, OrderTracker.after_ok hp]
    exact (OrderTracker.find_store _ _ _).trans (if_pos rfl)

namespace Session

variable {s s' : Session} {index : ℕ} {f : Bytes} {faults : List Fault} {w : World Byte}

def Accounted (s : Session) : Prop := ∀ op ∈ s.submissions, op.Accounted s.tracker

/-- A result that is taken up for an order that nothing else has decided is for that order, and its record is not too
long for the journal. -/
def Settles (s : Session) (action : Action) : Prop :=
  ∀ index op result order, action = .resume index → s.submissions[index]? = some op → op.due = some result →
    s.tracker.find op.hash = some order → ¬Decided order →
    Matches op.hash result ∧
      Encodes s.tracker.journal.options.maximumRecordBytes ((submissionCommand op.hash result).update op.hash order)

variable {p : PersistentOrderTracker}

theorem Accounted.modify {g : SubmitOperation → SubmitOperation} (h : s.Accounted)
    (ha : Advances s.tracker p)
    (hg : ∀ op, s.submissions[index]? = some op → op.Accounted s.tracker → (g op).Accounted p) :
    ∀ op ∈ s.submissions.modify index g, op.Accounted p :=
  forall_mem_modify h (fun _ ho => ho.advance ha) hg

theorem endSubmission_accounted (h : s.Accounted) (result : Result SubmissionResult) :
    (s.endSubmission index result).Accounted :=
  h.modify (Advances.refl _) (fun _ _ _ => trivial)

theorem start_accounted (client : Client) (h : s.Accounted) (w : World Byte) :
    ∀ s' ∈ (s.react client (.start index) w).1, s'.Accounted := by
  have hsame : ∀ s' ∈ (s.idle w).1, s'.Accounted := by
    intro s' hs
    cases hs
    exact h
  intro s' hs
  rw [react] at hs
  cases hi : s.submissions[index]? with
  | none =>
    rw [hi] at hs
    exact hsame s' hs
  | some op =>
    rw [hi] at hs
    obtain ⟨hash, stage, result⟩ := op
    cases stage with
    | queued request deadline =>
      dsimp only at hs
      obtain ⟨error, -, he⟩ | ⟨key, amount, -, -, ⟨p, w', hx, he⟩ | ⟨error, w', -, he⟩ | ⟨w', -, he⟩⟩ :=
        startSubmission_cases client index request deadline s w
      · rw [he] at hs
        cases hs
        exact endSubmission_accounted h _
      · rw [he] at hs
        cases hs
        refine h.modify (Advances.execute hx) (fun op ho hop => ?_)
        rw [hi] at ho
        cases ho
        have hnone : result = none := hop
        have hfind : ∃ order, p.find request.orderHash = some order ∧ (result.isSome = true → Decided order) :=
          ⟨_, begun_find hx, fun hr => by rw [hnone] at hr; cases hr⟩
        unfold SubmitOperation.Accounted
        dsimp only
        cases client.createOrder request deadline <;> exact hfind
      · rw [he] at hs
        cases hs
        exact endSubmission_accounted h _
      · rw [he] at hs
        cases hs
    | _ => exact hsame s' hs

theorem trade_accounted {op : SubmitOperation} (event : Event) (h : op.Accounted p) :
    (op.trade event).Accounted p := by
  obtain ⟨hash, stage, result⟩ := op
  cases stage with
  | running mutation operation => exact h
  | _ => exact h

theorem due_accounted (p' : PersistentOrderTracker) {op : SubmitOperation}
    {result : Result (MutationOutcome CreateOrderReceipt)} (h : op.Accounted p) (hd : op.due = some result) :
    ∃ order, p.find op.hash = some order ∧ ∀ order', p'.find op.hash = some order' → Decided order' →
      ∀ answer, SubmitOperation.Accounted p' { op with result := answer } := by
  obtain ⟨hash, stage, answer⟩ := op
  unfold SubmitOperation.due at hd
  cases stage with
  | queued request deadline => cases answer <;> cases hd
  | ended => cases answer <;> cases hd
  | running mutation operation =>
    obtain ⟨order, hf, -⟩ := h
    exact ⟨order, hf, fun order' hf' hd' _ => ⟨order', hf', fun _ => hd'⟩⟩
  | turnedDown error =>
    obtain ⟨order, hf, -⟩ := h
    exact ⟨order, hf, fun order' hf' hd' _ => ⟨order', hf', fun _ => hd'⟩⟩

theorem resume_accounted (client : Client) (hu : s.tracker.journal.Usable) (hn : NoFail faults) (h : s.Accounted)
    (hc : s.Settles (.resume index)) : ∀ s' ∈ (s.react client (.resume index) ⟨some f, faults⟩).1, s'.Accounted := by
  intro s' hs
  obtain he | ⟨op, result, hi, hd, he⟩ := resume_cases client index s ⟨some f, faults⟩
  · rw [he] at hs
    cases hs
    exact h
  · rw [he] at hs
    obtain ⟨p, w, answer, hx, he⟩ | ⟨error, w, hx, he⟩ | ⟨w, hx, he⟩ := onResult_cases index op.hash result s ⟨some f, faults⟩
    · rw [he] at hs
      cases hs
      refine h.modify (Advances.execute hx) (fun other ho hop => ?_)
      rw [hi] at ho
      cases ho
      obtain ⟨order, hf, hfinish⟩ := due_accounted p hop hd
      have hf' : p.find op.hash = some ((submissionCommand op.hash result).update op.hash order) := by
        rw [PersistentOrderTracker.execute_after hx]
        exact OrderTracker.find_after_some _ hf
      refine hfinish _ hf' ?_ _
      by_cases hdec : Decided order
      · exact update_decided _ _ hdec
      · exact submission_decided (OrderTracker.find_hash hf) (hc index op result order rfl hi hd hf hdec).1
    · rw [he] at hs
      cases hs
      refine h.modify (Advances.refl _) (fun other ho hop => ?_)
      rw [hi] at ho
      cases ho
      obtain ⟨order, hf, hfinish⟩ := due_accounted s.tracker hop hd
      refine hfinish order hf ?_ _
      -- an order that is not decided would have had a plan and a record that fits
      by_contra hdec
      obtain ⟨hm, henc⟩ := hc index op result order rfl hi hd hf hdec
      obtain ⟨next, hplan⟩ := plan_submission hf hdec hm
      obtain hp | ⟨records, next', hp, record, hr, hbad⟩ := PersistentOrderTracker.execute_error hu hx hn
      · rw [hplan] at hp
        cases hp
      · rw [hplan] at hp
        cases hp
        rw [List.mem_singleton.mp hr] at hbad
        exact hbad henc
    · rw [he] at hs
      cases hs

theorem react_accounted (client : Client) (hu : s.tracker.journal.Usable) (hn : NoFail faults) (h : s.Accounted)
    {action : Action} (hc : s.Settles action) : ∀ s' ∈ (s.react client action ⟨some f, faults⟩).1, s'.Accounted := by
  intro s' hs
  cases ha : action.submits with
  | false =>
    have hsub := react_submissions client ha s' hs
    have hcarried := react_carried client s action ⟨some f, faults⟩
    rcases hr : s.react client action ⟨some f, faults⟩ with ⟨session, w⟩
    rw [hr] at hs hcarried
    cases hs
    intro op ho
    rw [hsub] at ho
    refine (h op ho).advance ?_
    generalize s.command action = command at hcarried
    cases hcarried with
    | idle tracker => exact tracker ▸ Advances.refl _
    | done executed => exact Advances.execute executed
    | failed _ tracker => exact tracker ▸ Advances.refl _
  | true =>
    cases action with
    | submit request deadline =>
      cases hs
      intro op ho
      rcases List.mem_append.mp ho with ho | ho
      · exact h op ho
      · rw [List.mem_singleton.mp ho]
        rfl
    | start index => exact start_accounted client h _ s' hs
    | trade index event =>
      cases hs
      exact h.modify (Advances.refl _) (fun op _ hop => trade_accounted event hop)
    | resume index => exact resume_accounted client hu hn h hc s' hs
    | _ => cases ha

end Session

namespace System

variable (client : Client) (path : Bytes)

def Settled (x : System) : Prop :=
  ∀ s, x.session = some s → s.tracker.journal.Usable ∧ (∃ f, x.file = some f) ∧ s.Accounted

def Settles (x : System) (input : Input) : Prop :=
  NoFail input.faults ∧ ∀ s, x.session = some s → s.Settles input.action

variable {client path} {x : System} {input : Input}

theorem step_settled (h : x.Settled) (hc : x.Settles input) : (x.step client path input).Settled := by
  intro s' hs
  have hready : x.Ready := fun s hx => ⟨(h s hx).1, (h s hx).2.1⟩
  obtain ⟨hu', hfile'⟩ := step_ready hready s' hs
  refine ⟨hu', hfile', ?_⟩
  cases hx : x.session with
  | none =>
    obtain ⟨journal, options, w, -, ho, -⟩ := step_open hx hs
    obtain ⟨p, hp, rfl⟩ := open_ok ho
    exact fun op hm => by cases hm
  | some s =>
    obtain ⟨hu, ⟨f, hfile⟩, ha⟩ := h s hx
    rw [step_some hx, hfile] at hs
    exact Session.react_accounted client hu hc.1 ha (hc.2 s hx) s' hs

/-- When the handler of a submission has been called, its order is not left pending without the flag: in every run in
which each result that is taken up for an order that nothing else has decided is for that order and can be recorded. -/
theorem reported_submission_decided (client : Client) (path : Bytes) (inputs : List Input) (s : Session)
    (op : SubmitOperation) (hn : ∀ input ∈ inputs, NoFail input.faults)
    (hc : Runs.Along (step client path) (fun x input => ∀ s, x.session = some s → s.Settles input.action) fresh inputs)
    (hs : (Runs.run (step client path) fresh inputs).session = some s) (ho : op ∈ s.submissions) (hb : op.begun = true)
    (hr : op.result.isSome = true) :
    ∃ order, s.tracker.find op.hash = some order ∧
      ¬(order.state = .submissionPending ∧ order.reconciliationRequired = false) := by
  have hboth : Runs.Along (step client path) Settles fresh inputs :=
    Runs.along_and (step client path) (Runs.along_of_forall (step client path) hn fresh) hc
  obtain ⟨-, -, ha⟩ := Runs.run_invariant (step client path) (I := Settled) (fun _ _ => step_settled)
    (fun s hs => by cases hs) hboth s hs
  have hop := ha op ho
  unfold SubmitOperation.Accounted at hop
  unfold SubmitOperation.begun at hb
  cases hstage : op.stage with
  | queued request deadline | ended =>
    rw [hstage] at hb
    cases hb
  | running mutation operation | turnedDown error =>
    rw [hstage] at hop
    obtain ⟨order, hf, hd⟩ := hop
    exact ⟨order, hf, hd hr⟩

open OrderJournal (sampleJournal sampleJournal_usable)

def answeringClient (hash : Bytes) : Client :=
  ⟨.bnbTestnet, ⟨fun wire => some (plainJson wire),
    fun _ => some ⟨some true, some ⟨some (ascii "OK"), some (ascii "1"), some hash, none⟩⟩⟩, {}, fun _ => 0⟩

def answered : List Input := begin ++
  [⟨.trade 0 (.start 0 0 (.given [] (ascii "token"))), []⟩, ⟨.trade 0 (.completion (.ok ⟨201, [], []⟩)), []⟩]

def receiptOutcome (hash : Bytes) : MutationOutcome CreateOrderReceipt :=
  ⟨.acknowledged, some ⟨ascii "OK", ascii "1", hash, none⟩, none, sampleHash⟩

def answeredOperation (hash : Bytes) : SubmitOperation :=
  ⟨sampleHash, .running (sampleMutation (answeringClient hash))
    (Runs.run (Operation.step (sampleMutation (answeringClient hash))) .initial
      [.start 0 0 (.given [] (ascii "token")), .completion (.ok ⟨201, [], []⟩)]), none⟩

def answeredSession (hash : Bytes) : Session :=
  { begunSession (sampleMutation (answeringClient hash)) with submissions := [answeredOperation hash] }

theorem run_answered (hash : Bytes) : ∃ posts,
    Runs.run (step (answeringClient hash) sampleJournal.path) fresh answered =
      ⟨some begunFile, some (answeredSession hash), posts⟩ := by
  rw [answered, Runs.run_append, run_begin rfl]
  exact ⟨_, rfl⟩

theorem due_answered {hash : Bytes} (hl : hash.length ≤ 66) :
    (answeredOperation hash).due = some (.ok (receiptOutcome hash)) := by
  have hdecode : (answeringClient hash).decode [] = .ok ⟨ascii "OK", ascii "1", hash, none⟩ := by
    have hstring : ¬((ascii "OK").length > 256 * 1024 ∨ (ascii "1").length > 256 * 1024 ∨ hash.length > 256 * 1024 ∨
        ((none : Option Bytes).getD []).length > 256 * 1024) := by
      rintro (h | h | h | h)
      · exact absurd h (by decide)
      · exact absurd h (by decide)
      · omega
      · exact absurd h (by decide)
    exact if_neg hstring
  have hm : (sampleMutation (answeringClient hash)).decode [] = _ := hdecode
  change some (Operation.answer (sampleMutation (answeringClient hash)) (.ok ⟨201, [], []⟩)) = _
  dsimp only [Operation.answer]
  rw [if_pos ⟨by decide, by decide⟩, hm]
  rfl

theorem find_answered (hash : Bytes) :
    (answeredSession hash).tracker.find sampleHash = some (submitted sampleHash tenShares) :=
  (OrderTracker.find_store _ _ _).trans (if_pos rfl)

theorem react_answered {hash : Bytes} (hl : hash.length ≤ 66) (w : World Byte) :
    (answeredSession hash).react (answeringClient hash) (.resume 0) w =
      (answeredSession hash).onResult 0 sampleHash (.ok (receiptOutcome hash)) w := by
  rw [Session.react_resume rfl (due_answered hl)]
  rfl

/-- The venue acknowledges another order: the handler is called, and the order is neither decided nor quarantined. -/
theorem other_receipt_undecided :
    ∃ s op order, (Runs.run (step (answeringClient otherHash) sampleJournal.path) fresh
        (answered ++ [⟨.resume 0, []⟩])).session = some s ∧ s.submissions = [op] ∧ op.begun = true ∧
      op.result.isSome = true ∧ s.tracker.find op.hash = some order ∧ order.state = .submissionPending ∧
      order.reconciliationRequired = false := by
  obtain ⟨posts, hrun⟩ := run_answered otherHash
  have hcreate : createOutcome (receiptOutcome otherHash) (submitted sampleHash tenShares) =
      fail .protocolError "create receipt hash does not match tracked order" "hash" := by decide
  have hx : ∃ error w, (answeredSession otherHash).tracker.execute
      (.applyCreateOutcome sampleHash (receiptOutcome otherHash)) ⟨some begunFile, []⟩ = (.error error, w) := by
    have hf : (answeredSession otherHash).tracker.tracker.find sampleHash = _ := find_answered otherHash
    rw [PersistentOrderTracker.execute_eq, OrderTracker.plan, OrderTracker.applyCreateOutcome, OrderTracker.alter, hf]
    dsimp only
    rw [hcreate]
    exact ⟨_, _, rfl⟩
  obtain ⟨error, w, hx⟩ := hx
  rw [Runs.run_append, hrun, Runs.run_cons, Runs.run_nil, step_some rfl]
  rw [react_answered (by decide)]
  obtain ⟨p, w', answer, hx', -⟩ | ⟨error', w', -, he⟩ | ⟨w', hx', -⟩ :=
    Session.onResult_cases 0 sampleHash (.ok (receiptOutcome otherHash)) (answeredSession otherHash) ⟨some begunFile, []⟩
  · cases hx.symm.trans hx'
  · rw [he]
    exact ⟨_, _, submitted sampleHash tenShares, rfl, rfl, rfl, rfl, find_answered otherHash, rfl, rfl⟩
  · cases hx.symm.trans hx'

theorem own_receipt_decided :
    ∃ s op order, (Runs.run (step (answeringClient sampleHash) sampleJournal.path) fresh
        (answered ++ [⟨.resume 0, []⟩])).session = some s ∧ s.submissions = [op] ∧
      s.tracker.find op.hash = some order ∧ ¬(order.state = .submissionPending ∧ order.reconciliationRequired = false) := by
  obtain ⟨posts, hrun⟩ := run_answered sampleHash
  have hfits : Encodes (answeredSession sampleHash).tracker.journal.options.maximumRecordBytes
      ((Session.submissionCommand sampleHash (.ok (receiptOutcome sampleHash))).update sampleHash
        (submitted sampleHash tenShares)) := by decide
  have hmatches : Matches sampleHash (.ok (receiptOutcome sampleHash)) := by
    intro outcome ho
    cases ho
    exact Or.inr ⟨_, rfl, rfl⟩
  have hsettles : Runs.Along (step (answeringClient sampleHash) sampleJournal.path)
      (fun x input => ∀ s, x.session = some s → s.Settles input.action) fresh (answered ++ [⟨.resume 0, []⟩]) := by
    rw [Runs.along_append, hrun]
    constructor
    · refine (Runs.along_iff _ _ _ _).mpr (fun before input hp s _ index _ _ _ ha => ?_)
      have hm : input ∈ answered := hp.subset (List.mem_append_right _ List.mem_cons_self)
      simp only [answered, begin, List.cons_append, List.nil_append, List.mem_cons, List.not_mem_nil, or_false] at hm
      rcases hm with rfl | rfl | rfl | rfl | rfl <;> cases ha
    · refine ⟨fun s hs index op result order ha hi hd hf _ => ?_, trivial⟩
      cases hs
      cases ha
      cases hi
      rw [due_answered (by decide)] at hd
      cases hd
      cases (find_answered sampleHash).symm.trans hf
      exact ⟨hmatches, hfits⟩
  obtain ⟨s, op, hs, hop, hb, hr⟩ : ∃ s op, (Runs.run (step (answeringClient sampleHash) sampleJournal.path) fresh
      (answered ++ [⟨.resume 0, []⟩])).session = some s ∧ s.submissions = [op] ∧ op.begun = true ∧
      op.result.isSome = true := by
    rw [Runs.run_append, hrun, Runs.run_cons, Runs.run_nil, step_some rfl, react_answered (by decide)]
    have hf : (answeredSession sampleHash).tracker.tracker.find sampleHash = _ := find_answered sampleHash
    obtain ⟨next, hplan⟩ := plan_submission hf (fun hd => hd ⟨rfl, rfl⟩) hmatches
    have hx := PersistentOrderTracker.execute_ok (p := (answeredSession sampleHash).tracker) (f := begunFile)
      sampleJournal_usable hplan (by simpa using hfits)
    obtain ⟨p, w', answer, -, he⟩ | ⟨error, w', hx', -⟩ | ⟨w', hx', -⟩ := Session.onResult_cases 0 sampleHash
      (.ok (receiptOutcome sampleHash)) (answeredSession sampleHash) ⟨some begunFile, []⟩
    · rw [he]
      exact ⟨_, _, rfl, rfl, rfl, rfl⟩
    · cases hx.symm.trans hx'
    · cases hx.symm.trans hx'
  obtain ⟨order, hf, hd⟩ := reported_submission_decided (answeringClient sampleHash) sampleJournal.path _ s op
    (fun input hi => by
      simp only [answered, begin, List.cons_append, List.nil_append, List.mem_cons, List.not_mem_nil, or_false] at hi
      rcases hi with rfl | rfl | rfl | rfl | rfl | rfl <;> exact NoFail.nil)
    hsettles hs (by rw [hop]; exact List.mem_singleton_self op) hb hr
  exact ⟨s, op, order, hs, hop, hf, hd⟩

end System

end PredictFun.Execution
