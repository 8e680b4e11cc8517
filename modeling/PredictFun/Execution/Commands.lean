import PredictFun.Execution.Submission
import PredictFun.Lifecycle.Growth

namespace PredictFun.Execution

open Base Storage Lifecycle Trading

namespace ReconcileOperation

structure Answered (op : ReconcileOperation) (result : Result OrdersPage) (op' : ReconcileOperation) : Prop where
  ownsActive : op'.ownsActive = op.ownsActive
  handler : op'.handler = op.handler
  requests : op'.requests = op.requests
  received : op'.received = op.received ++ [result]
  applied : op'.applied = op.applied
  delivered : op'.delivered = op.delivered

def advanced (op : ReconcileOperation) (page : OrdersPage) : ReconcileOperation :=
  { op with
    received := op.received ++ [.ok page]
    pages := op.pages + 1
    orders := op.orders ++ page.orders
    cursors := page.cursor.getD [] :: op.cursors }

def completed (op : ReconcileOperation) (page : OrdersPage) : ReconcileOperation :=
  { op with
    received := op.received ++ [.ok page]
    pages := op.pages + 1
    orders := op.orders ++ page.orders
    applied := op.applied ++ [op.orders ++ page.orders] }

end ReconcileOperation

def Action.submits : Action → Bool
  | .submit _ _ | .start _ | .trade _ _ | .resume _ => true
  | _ => false

def Action.reconciles : Action → Bool
  | .reconcile _ | .startReconciliation _ | .page _ _ => true
  | _ => false

namespace Session

variable (client : Client)

theorem startSubmission_cases (index : ℕ) (request : CreateOrderRequest) (deadline : Option ℕ) (s : Session)
    (w : World Byte) :
    (∃ error, (validateCreateOrder request = .error error ∨ trackedShareAmount request = .error error) ∧
      s.startSubmission client index request deadline w = (some (s.endSubmission index (.error error)), w)) ∨
    ∃ key amount, validateCreateOrder request = .ok key ∧ trackedShareAmount request = .ok amount ∧
      ((∃ p w', s.tracker.execute (.beginSubmission request.orderHash amount) w = (.ok p, w') ∧
        s.startSubmission client index request deadline w =
          (some (dispatch client index request deadline { s with tracker := p }), w')) ∨
      (∃ error w', s.tracker.execute (.beginSubmission request.orderHash amount) w = (.error error, w') ∧
        s.startSubmission client index request deadline w = (some (s.endSubmission index (.error error)), w')) ∨
      ∃ w', s.tracker.execute (.beginSubmission request.orderHash amount) w = (.crashed, w') ∧
        s.startSubmission client index request deadline w = (none, w')) := by
  unfold startSubmission
  cases hv : validateCreateOrder request with
  | error error => exact Or.inl ⟨error, Or.inl rfl, rfl⟩
  | ok key =>
    cases ha : trackedShareAmount request with
    | error error => exact Or.inl ⟨error, Or.inr rfl, rfl⟩
    | ok amount =>
      refine Or.inr ⟨key, amount, rfl, rfl, ?_⟩
      obtain ⟨value, p, w', hx, he⟩ | ⟨error, w', hx, he⟩ | ⟨w', hx, he⟩ :=
        persist_cases (s := s) (.beginSubmission request.orderHash amount) _ rfl w
      · exact Or.inl ⟨p, w', hx, he⟩
      · exact Or.inr (Or.inl ⟨error, w', hx, he⟩)
      · exact Or.inr (Or.inr ⟨w', hx, he⟩)

def submissionCommand (hash : Bytes) : Result (MutationOutcome CreateOrderReceipt) → Command
  | .error rejection => .markSubmissionRejected hash rejection
  | .ok outcome => .applyCreateOutcome hash outcome

theorem onResult_cases (index : ℕ) (hash : Bytes) (result : Result (MutationOutcome CreateOrderReceipt)) (s : Session)
    (w : World Byte) :
    (∃ p w' answer, s.tracker.execute (submissionCommand hash result) w = (.ok p, w') ∧
      s.onResult index hash result w = (some (finishSubmission index answer { s with tracker := p }), w')) ∨
    (∃ error w', s.tracker.execute (submissionCommand hash result) w = (.error error, w') ∧
      s.onResult index hash result w = (some (s.finishSubmission index (.error error)), w')) ∨
    ∃ w', s.tracker.execute (submissionCommand hash result) w = (.crashed, w') ∧
      s.onResult index hash result w = (none, w') := by
  cases result with
  | error rejection =>
    rw [onResult]
    obtain ⟨value, p, w', hx, he⟩ | ⟨error, w', hx, he⟩ | ⟨w', hx, he⟩ :=
      persist_cases (s := s) (.markSubmissionRejected hash rejection) _ rfl w
    · exact Or.inl ⟨p, w', _, hx, he⟩
    · exact Or.inr (Or.inl ⟨error, w', hx, he⟩)
    · exact Or.inr (Or.inr ⟨w', hx, he⟩)
  | ok outcome =>
    rw [onResult]
    obtain ⟨value, p, w', hx, he⟩ | ⟨error, w', hx, he⟩ | ⟨w', hx, he⟩ :=
      persist_cases (s := s) (.applyCreateOutcome hash outcome) _ rfl w
    · exact Or.inl ⟨p, w', _, hx, he⟩
    · exact Or.inr (Or.inl ⟨error, w', hx, he⟩)
    · exact Or.inr (Or.inr ⟨w', hx, he⟩)

theorem resume_cases (index : ℕ) (s : Session) (w : World Byte) :
    s.react client (.resume index) w = (some s, w) ∨
      ∃ op result, s.submissions[index]? = some op ∧ op.due = some result ∧
        s.react client (.resume index) w = s.onResult index op.hash result w := by
  rw [react]
  cases hi : s.submissions[index]? with
  | none => exact Or.inl rfl
  | some op =>
    dsimp only
    cases hd : op.due with
    | none => exact Or.inl rfl
    | some result => exact Or.inr ⟨op, result, rfl, hd, rfl⟩

theorem onPage_cases (index : ℕ) (op : ReconcileOperation) (result : Result OrdersPage) (s : Session) (w : World Byte) :
    (∃ op' error, op.Answered result op' ∧ (∀ page, result = .ok page → page.cursor.getD [] ≠ []) ∧
      s.onPage index op result w = (some (s.finishReconciliation index op' (.error error)), w)) ∨
    (∃ page cursor, result = .ok page ∧ page.cursor = some cursor ∧ cursor ≠ [] ∧ cursor ∉ op.cursors ∧
      op.pages + 1 < s.options.maximumReconciliationPages ∧
      s.onPage index op result w = (some (s.requestPage index (op.advanced page) (some cursor)), w)) ∨
    ∃ page, result = .ok page ∧ page.cursor.getD [] = [] ∧
      ((∃ p w' answer, s.tracker.execute (.reconcile op.generation (op.orders ++ page.orders)) w = (.ok p, w') ∧
        s.onPage index op result w =
          (some (finishReconciliation index (op.completed page) answer { s with tracker := p }), w')) ∨
      (∃ error w', s.tracker.execute (.reconcile op.generation (op.orders ++ page.orders)) w = (.error error, w') ∧
        s.onPage index op result w = (some (s.finishReconciliation index (op.completed page) (.error error)), w')) ∨
      ∃ w', s.tracker.execute (.reconcile op.generation (op.orders ++ page.orders)) w = (.crashed, w') ∧
        s.onPage index op result w = (none, w')) := by
  unfold onPage
  cases result with
  | error error =>
    dsimp only
    refine Or.inl ⟨_, error, ?_, (fun page h => by cases h), rfl⟩
    exact ⟨rfl, rfl, rfl, rfl, rfl, rfl⟩
  | ok page =>
    dsimp only
    split_ifs with hc hr hb
    · refine Or.inl ⟨_, _, ?_, fun _ h => by cases h; exact hc, rfl⟩
      exact ⟨rfl, rfl, rfl, rfl, rfl, rfl⟩
    · refine Or.inl ⟨_, _, ?_, fun _ h => by cases h; exact hc, rfl⟩
      exact ⟨rfl, rfl, rfl, rfl, rfl, rfl⟩
    · refine Or.inr (Or.inl ⟨page, page.cursor.getD [], rfl, ?_, hc, hr, by omega, rfl⟩)
      cases hp : page.cursor with
      | none =>
        rw [hp] at hc
        exact absurd rfl hc
      | some cursor => rfl
    · refine Or.inr (Or.inr ⟨page, rfl, not_not.mp hc, ?_⟩)
      obtain ⟨value, p, w', hx, he⟩ | ⟨error, w', hx, he⟩ | ⟨w', hx, he⟩ :=
        persist_cases (s := s) (.reconcile op.generation (op.orders ++ page.orders)) _ rfl w
      · exact Or.inl ⟨p, w', _, hx, he⟩
      · exact Or.inr (Or.inl ⟨error, w', hx, he⟩)
      · exact Or.inr (Or.inr ⟨w', hx, he⟩)

theorem startReconciliation_cases (index : ℕ) (op : ReconcileOperation) (s : Session) (w : World Byte) :
    (s.reconciliationActive = true ∧ ∃ error, s.startReconciliation index op w =
      (some (s.finishReconciliation index op (.error error)), w)) ∨
    s.reconciliationActive = false ∧
      ((∃ p w', s.tracker.execute (.requireReconciliation op.generation) w = (.ok p, w') ∧
        s.startReconciliation index op w = (some { requestPage index { op with ownsActive := true } none s with
          tracker := p, reconciliationActive := true }, w')) ∨
      (∃ error w', s.tracker.execute (.requireReconciliation op.generation) w = (.error error, w') ∧
        s.startReconciliation index op w =
          (some (s.finishReconciliation index { op with ownsActive := true } (.error error)), w')) ∨
      ∃ w', s.tracker.execute (.requireReconciliation op.generation) w = (.crashed, w') ∧
        s.startReconciliation index op w = (none, w')) := by
  unfold startReconciliation
  split_ifs with ha
  · exact Or.inl ⟨ha, _, rfl⟩
  · refine Or.inr ⟨by simpa using ha, ?_⟩
    obtain ⟨value, p, w', hx, he⟩ | ⟨error, w', hx, he⟩ | ⟨w', hx, he⟩ :=
      persist_cases (s := { s.setReconciliation index { op with ownsActive := true } with reconciliationActive := true })
        (.requireReconciliation op.generation) _ rfl w
    · refine Or.inl ⟨p, w', hx, he.trans ?_⟩
      simp [requestPage, setReconciliation]
    · refine Or.inr (Or.inl ⟨error, w', hx, he.trans ?_⟩)
      simp [finishReconciliation, setReconciliation]
    · exact Or.inr (Or.inr ⟨w', hx, he⟩)


def command (s : Session) : Action → Option Command
  | .start index =>
    match s.submissions[index]? with
    | some ⟨_, .queued request _, _⟩ =>
      match validateCreateOrder request, trackedShareAmount request with
      | .ok _, .ok amount => some (.beginSubmission request.orderHash amount)
      | _, _ => none
    | _ => none
  | .resume index => s.submissions[index]?.bind (fun op => op.due.map (submissionCommand op.hash))
  | .walletEvent event => some (.applyWalletEvent event)
  | .bookRemoved hash => some (.markBookRemoved hash)
  | .startReconciliation index =>
    match s.reconciliations[index]? with
    | some op =>
      match op.stage with
      | .queued => if s.reconciliationActive then none else some (.requireReconciliation op.generation)
      | _ => none
    | none => none
  | .page index (.ok page) =>
    match s.reconciliations[index]? with
    | some op =>
      match op.stage with
      | .requested _ =>
        if page.cursor.getD [] = [] then some (.reconcile op.generation (op.orders ++ page.orders)) else none
      | _ => none
    | none => none
  | _ => none

variable {s : Session} {w : World Byte} {index : ℕ}

variable {action : Action} {α : Type}

theorem command_cases {command : Command} (h : s.command action = some command) :
    (∃ index op request deadline key amount, action = .start index ∧ s.submissions[index]? = some op ∧
      op.stage = .queued request deadline ∧ validateCreateOrder request = .ok key ∧ trackedShareAmount request = .ok amount ∧
      command = .beginSubmission request.orderHash amount) ∨
    (∃ index op result, action = .resume index ∧ s.submissions[index]? = some op ∧ op.due = some result ∧
      command = submissionCommand op.hash result) ∨
    (∃ event, action = .walletEvent event ∧ command = .applyWalletEvent event) ∨
    (∃ hash, action = .bookRemoved hash ∧ command = .markBookRemoved hash) ∨
    (∃ index op, action = .startReconciliation index ∧ s.reconciliations[index]? = some op ∧ op.stage = .queued ∧
      s.reconciliationActive = false ∧ command = .requireReconciliation op.generation) ∨
    ∃ index op after page, action = .page index (.ok page) ∧ s.reconciliations[index]? = some op ∧
      op.stage = .requested after ∧ page.cursor.getD [] = [] ∧
      command = .reconcile op.generation (op.orders ++ page.orders) := by
  unfold Session.command at h
  split at h
  next index =>
    split at h
    next hash request deadline result hi =>
      split at h
      next key amount hv ha =>
        cases h
        exact Or.inl ⟨index, _, request, deadline, key, amount, rfl, hi, rfl, hv, ha, rfl⟩
      · cases h
    · cases h
  next index =>
    obtain ⟨op, hi, hd⟩ := Option.bind_eq_some_iff.mp h
    obtain ⟨result, hr, rfl⟩ := Option.map_eq_some_iff.mp hd
    exact Or.inr (Or.inl ⟨index, op, result, rfl, hi, hr, rfl⟩)
  next event =>
    cases h
    exact Or.inr (Or.inr (Or.inl ⟨event, rfl, rfl⟩))
  next hash =>
    cases h
    exact Or.inr (Or.inr (Or.inr (Or.inl ⟨hash, rfl, rfl⟩)))
  next index =>
    split at h
    next op hi =>
      split at h
      next hq =>
        split_ifs at h with ha
        cases h
        exact Or.inr (Or.inr (Or.inr (Or.inr (Or.inl ⟨index, op, rfl, hi, hq, by simpa using ha, rfl⟩))))
      · cases h
    · cases h
  next index page =>
    split at h
    next op hi =>
      split at h
      next after hq =>
        split_ifs at h with hc
        cases h
        exact Or.inr (Or.inr (Or.inr (Or.inr (Or.inr ⟨index, op, after, page, rfl, hi, hq, hc, rfl⟩))))
      · cases h
    · cases h
  · cases h

theorem command_walletEvent {event : WalletEvent}
    (h : s.command action = some (.applyWalletEvent event)) : action = .walletEvent event := by
  obtain ⟨_, _, _, _, _, _, -, -, -, -, -, hc⟩ | ⟨_, _, result, -, -, -, hc⟩ | ⟨_, ha, hc⟩ | ⟨_, -, hc⟩ |
    ⟨_, _, -, -, -, -, hc⟩ | ⟨_, _, _, _, -, -, -, -, hc⟩ := command_cases h
  · cases hc
  · cases result <;> cases hc
  · cases hc
    exact ha
  · cases hc
  · cases hc
  · cases hc

/-- What becomes of the tracker when a callback carries out its command, if it has one. -/
inductive Carried (s : Session) (w : World Byte) : Option Command → Option Session × World Byte → Prop
  | idle {s' : Session} (tracker : s'.tracker = s.tracker) : Carried s w none (some s', w)
  | exit : Carried s w none (none, w)
  | done {command : Command} {s' : Session} {w' : World Byte}
      (executed : s.tracker.execute command w = (.ok s'.tracker, w')) : Carried s w (some command) (some s', w')
  | failed {command : Command} {error : Error} {s' : Session} {w' : World Byte}
      (executed : s.tracker.execute command w = (.error error, w')) (tracker : s'.tracker = s.tracker) :
      Carried s w (some command) (some s', w')
  | crashed {command : Command} {w' : World Byte} (executed : s.tracker.execute command w = (.crashed, w')) :
      Carried s w (some command) (none, w')

variable {next : Result α → Session → Session}

theorem persist_carried {operation : Disk Byte Error (α × PersistentOrderTracker)} (command : Command)
    (h : Prod.snd <$> operation = s.tracker.execute command)
    (hnext : ∀ result s, (next result s).tracker = s.tracker) :
    Carried s w (some command) (s.persist operation next w) := by
  obtain ⟨value, p, w', hx, he⟩ | ⟨error, w', hx, he⟩ | ⟨w', hx, he⟩ := persist_cases command next h w
  · rw [he]
    refine .done ?_
    rw [hx, hnext]
  · rw [he]
    exact .failed hx (hnext _ _)
  · rw [he]
    exact .crashed hx

theorem start_carried (index : ℕ) :
    Carried s w (s.command (.start index)) (s.react client (.start index) w) := by
  rw [command, react]
  rcases s.submissions[index]? with _ | ⟨hash, stage, result⟩
  · exact .idle rfl
  cases stage with
  | queued request deadline =>
    dsimp only [startSubmission]
    cases validateCreateOrder request with
    | error error => exact .idle rfl
    | ok key =>
      dsimp only
      cases trackedShareAmount request with
      | error error => exact .idle rfl
      | ok amount =>
        refine persist_carried (.beginSubmission request.orderHash amount) rfl (fun result s => ?_)
        cases result <;> rfl
  | _ => exact .idle rfl

theorem resume_carried (index : ℕ) :
    Carried s w (s.command (.resume index)) (s.react client (.resume index) w) := by
  rw [command, react]
  cases s.submissions[index]? with
  | none => exact .idle rfl
  | some op =>
    dsimp only [Option.bind_some]
    cases op.due with
    | none => exact .idle rfl
    | some result =>
      dsimp only [Option.map_some]
      obtain ⟨p, w', answer, hx, he⟩ | ⟨error, w', hx, he⟩ | ⟨w', hx, he⟩ := onResult_cases index op.hash result s w
      · rw [he]
        exact .done hx
      · rw [he]
        exact .failed hx rfl
      · rw [he]
        exact .crashed hx

theorem startReconciliation_carried (index : ℕ) :
    Carried s w (s.command (.startReconciliation index)) (s.react client (.startReconciliation index) w) := by
  rw [command, react]
  cases s.reconciliations[index]? with
  | none => exact .idle rfl
  | some op =>
    dsimp only
    cases op.stage with
    | queued =>
      dsimp only
      obtain ⟨ha, error, he⟩ | ⟨ha, h⟩ := startReconciliation_cases index op s w
      · rw [he, if_pos ha]
        exact .idle rfl
      · rw [if_neg (by simp [ha])]
        obtain ⟨p, w', hx, he⟩ | ⟨error, w', hx, he⟩ | ⟨w', hx, he⟩ := h
        · rw [he]
          exact .done hx
        · rw [he]
          exact .failed hx rfl
        · rw [he]
          exact .crashed hx
    | _ => exact .idle rfl

theorem page_carried (index : ℕ) (result : Result OrdersPage) :
    Carried s w (s.command (.page index result)) (s.react client (.page index result) w) := by
  rw [react]
  cases hi : s.reconciliations[index]? with
  | none =>
    have hn : s.command (.page index result) = none := by cases result <;> simp [command, hi]
    rw [hn]
    exact .idle rfl
  | some op =>
    dsimp only
    cases hq : op.stage with
    | requested after =>
      dsimp only
      obtain ⟨op', error, -, hc, he⟩ | ⟨page, cursor, rfl, hp, hc, -, -, he⟩ | ⟨page, rfl, hc, h⟩ :=
        onPage_cases index op result s w
      · rw [he]
        cases result with
        | error error => exact .idle rfl
        | ok page =>
          simp only [command, hi, hq, if_neg (hc page rfl)]
          exact .idle rfl
      · rw [he]
        simp only [command, hi, hq, hp, Option.getD_some, if_neg hc]
        exact .idle rfl
      · simp only [command, hi, hq, if_pos hc]
        obtain ⟨p, w', answer, hx, he⟩ | ⟨error, w', hx, he⟩ | ⟨w', hx, he⟩ := h
        · rw [he]
          exact .done hx
        · rw [he]
          exact .failed hx rfl
        · rw [he]
          exact .crashed hx
    | _ =>
      have hn : s.command (.page index result) = none := by cases result <;> simp [command, hi, hq]
      rw [hn]
      exact .idle rfl

theorem react_carried (s : Session) (action : Action) (w : World Byte) :
    Carried s w (s.command action) (s.react client action w) := by
  cases action with
  | «open» journal options => exact .idle rfl
  | submit request deadline => exact .idle rfl
  | start index => exact start_carried client index
  | trade index event => exact .idle rfl
  | resume index => exact resume_carried client index
  | walletEvent event =>
    rw [command, react, applyWalletEvent]
    exact persist_carried (.applyWalletEvent event) rfl (fun _ _ => rfl)
  | bookRemoved hash =>
    rw [command, react, markBookRemoved]
    exact persist_carried (.markBookRemoved hash) rfl (fun _ _ => rfl)
  | reconcile generation => exact .idle rfl
  | startReconciliation index => exact startReconciliation_carried client index
  | page index result => exact page_carried client index result
  | exit => exact .exit

theorem Carried.of_ok {command : Command} {result : Option Session × World Byte} {p : PersistentOrderTracker}
    {w' : World Byte} (h : Carried s w (some command) result) (hx : s.tracker.execute command w = (.ok p, w')) :
    ∃ s', result = (some s', w') ∧ s'.tracker = p := by
  cases h with
  | done executed =>
    rw [hx] at executed
    cases executed
    exact ⟨_, rfl, rfl⟩
  | failed executed =>
    rw [hx] at executed
    cases executed
  | crashed executed =>
    rw [hx] at executed
    cases executed

def Same (s s' : Session) : Prop :=
  s'.reconciliations = s.reconciliations ∧ s'.reconciliationActive = s.reconciliationActive ∧ s'.options = s.options

theorem Same.idle {s' : Session} (h : s.Same s') : ∀ s₁ ∈ (s'.idle w).1, s.Same s₁ := by
  intro s₁ hs
  cases hs
  exact h

theorem persist_forall {P : Session → Prop} (operation : Disk Byte Error (α × PersistentOrderTracker))
    (hok : ∀ value p, P (next (.ok value) { s with tracker := p }))
    (herror : ∀ error, P (next (.error error) s)) : ∀ s' ∈ (s.persist operation next w).1, P s' := by
  intro s' hs
  unfold persist at hs
  rcases hr : operation w with ⟨⟨value, p⟩ | error | _, w'⟩
  · rw [hr] at hs
    cases hs
    exact hok value p
  · rw [hr] at hs
    cases hs
    exact herror error
  · rw [hr] at hs
    cases hs

theorem persist_same (operation : Disk Byte Error (α × PersistentOrderTracker))
    (hnext : ∀ result (s : Session), s.Same (next result s)) :
    ∀ s' ∈ (s.persist operation next w).1, s.Same s' :=
  persist_forall operation (fun value p => hnext (.ok value) { s with tracker := p }) (fun error => hnext (.error error) s)

theorem onResult_same (hash : Bytes) (result : Result (MutationOutcome CreateOrderReceipt)) :
    ∀ s' ∈ (s.onResult index hash result w).1, s.Same s' := by
  cases result with
  | error error => exact persist_same _ (fun _ _ => ⟨rfl, rfl, rfl⟩)
  | ok outcome => exact persist_same _ (fun _ _ => ⟨rfl, rfl, rfl⟩)

theorem startSubmission_same (request : CreateOrderRequest) (deadline : Option ℕ) :
    ∀ s' ∈ (s.startSubmission client index request deadline w).1, s.Same s' := by
  unfold startSubmission
  cases validateCreateOrder request with
  | error error => exact Same.idle ⟨rfl, rfl, rfl⟩
  | ok key =>
    dsimp only
    cases trackedShareAmount request with
    | error error => exact Same.idle ⟨rfl, rfl, rfl⟩
    | ok amount =>
      refine persist_same _ (fun result s => ?_)
      cases result <;> exact ⟨rfl, rfl, rfl⟩

theorem react_same (ha : action.reconciles = false) :
    ∀ s' ∈ (s.react client action w).1, s.Same s' := by
  have hsame : ∀ s' ∈ (s.idle w).1, s.Same s' := Same.idle ⟨rfl, rfl, rfl⟩
  cases action with
  | «open» journal options => exact hsame
  | submit request deadline => exact Same.idle ⟨rfl, rfl, rfl⟩
  | start index =>
    rw [react]
    rcases s.submissions[index]? with _ | ⟨hash, stage, result⟩
    · exact hsame
    cases stage with
    | queued request deadline => exact startSubmission_same client request deadline
    | _ => exact hsame
  | trade index event => exact Same.idle ⟨rfl, rfl, rfl⟩
  | resume index =>
    obtain he | ⟨op, result, -, -, he⟩ := resume_cases client index s w
    · rw [he]
      exact hsame
    · rw [he]
      exact onResult_same op.hash result
  | walletEvent event =>
    rw [react, applyWalletEvent]
    exact persist_same _ (fun _ _ => ⟨rfl, rfl, rfl⟩)
  | bookRemoved hash =>
    rw [react, markBookRemoved]
    exact persist_same _ (fun _ _ => ⟨rfl, rfl, rfl⟩)
  | reconcile generation => cases ha
  | startReconciliation index => cases ha
  | page index result => cases ha
  | exit =>
    intro s' hs
    cases hs

theorem react_submissions (ha : action.submits = false) :
    ∀ s' ∈ (s.react client action w).1, s'.submissions = s.submissions := by
  have hsame : ∀ s' ∈ (s.idle w).1, s'.submissions = s.submissions := by
    intro s' hs
    cases hs
    rfl
  cases action with
  | «open» journal options => exact hsame
  | submit request deadline => cases ha
  | start index => cases ha
  | trade index event => cases ha
  | resume index => cases ha
  | walletEvent event =>
    rw [react, applyWalletEvent]
    exact persist_forall _ (fun _ _ => rfl) (fun _ => rfl)
  | bookRemoved hash =>
    rw [react, markBookRemoved]
    exact persist_forall _ (fun _ _ => rfl) (fun _ => rfl)
  | reconcile generation =>
    intro s' hs
    cases hs
    rfl
  | startReconciliation index =>
    rw [react]
    cases s.reconciliations[index]? with
    | none => exact hsame
    | some op =>
      dsimp only
      cases op.stage with
      | queued =>
        dsimp only [startReconciliation]
        split_ifs
        · intro s' hs
          cases hs
          rfl
        · exact persist_forall _ (fun _ _ => rfl) (fun _ => rfl)
      | _ => exact hsame
  | page index result =>
    rw [react]
    cases s.reconciliations[index]? with
    | none => exact hsame
    | some op =>
      dsimp only
      cases op.stage with
      | requested after =>
        intro s' hs
        dsimp only at hs
        obtain ⟨op', error, -, -, he⟩ | ⟨page, cursor, -, -, -, -, -, he⟩ | ⟨page, -, -, h⟩ :=
          onPage_cases index op result s w
        · rw [he] at hs
          cases hs
          rfl
        · rw [he] at hs
          cases hs
          rfl
        · obtain ⟨p, w', answer, -, he⟩ | ⟨error, w', -, he⟩ | ⟨w', -, he⟩ := h
          · rw [he] at hs
            cases hs
            rfl
          · rw [he] at hs
            cases hs
            rfl
          · rw [he] at hs
            cases hs
      | _ => exact hsame
  | exit =>
    intro s' hs
    cases hs

end Session

namespace System

variable {client : Client} {path : Bytes} {x : System}

variable {s : Session} {input : Input}

theorem step_some (h : x.session = some s) (input : Input) :
    (x.step client path input).session = (s.react client input.action ⟨x.file, input.faults⟩).1 := by
  obtain ⟨file, session, posts⟩ := x
  cases h
  rfl

theorem step_none (h : x.session = none) (ha : ∀ journal options, input.action ≠ .open journal options) :
    x.step client path input = x := by
  obtain ⟨file, session, posts⟩ := x
  obtain ⟨action, faults⟩ := input
  cases h
  cases action with
  | «open» journal options => exact absurd rfl (ha journal options)
  | _ => rfl

theorem step_open (h : x.session = none) (hs : (x.step client path input).session = some s) :
    ∃ journal options w, input.action = .open journal options ∧
      Session.open ⟨path, journal⟩ options ⟨x.file, input.faults⟩ = (.ok s, w) ∧
      (x.step client path input).file = w.file := by
  obtain ⟨file, session, posts⟩ := x
  obtain ⟨action, faults⟩ := input
  cases h
  cases action with
  | «open» journal options =>
    change (opened _ (Session.open ⟨path, journal⟩ options ⟨file, faults⟩)).session = some s at hs
    rcases ho : Session.open ⟨path, journal⟩ options ⟨file, faults⟩ with ⟨s' | error | _, w⟩
    · rw [ho] at hs
      cases hs
      refine ⟨journal, options, w, rfl, ho, ?_⟩
      change (opened _ (Session.open ⟨path, journal⟩ options ⟨file, faults⟩)).file = w.file
      rw [ho]
      rfl
    · rw [ho] at hs
      cases hs
    · rw [ho] at hs
      cases hs
  | _ => cases hs

theorem run_keeps {P : Session → Prop}
    (hopen : ∀ journal options w w' s, Session.open journal options w = (.ok s, w') → P s)
    (hreact : ∀ s action w, P s → ∀ s' ∈ (s.react client action w).1, P s') (inputs : List Input) :
    ∀ s, (Runs.run (step client path) fresh inputs).session = some s → P s := by
  refine Runs.run_invariant (I := fun x => ∀ s, x.session = some s → P s) (step client path) (Q := fun _ _ => True)
    (fun x input h _ s' hs => ?_) (fun s hs => by cases hs) ((Runs.along_iff _ _ _ _).mpr (fun _ _ _ => trivial))
  cases hx : x.session with
  | none =>
    obtain ⟨journal, options, w, -, ho, -⟩ := step_open hx hs
    exact hopen _ _ _ _ _ ho
  | some s =>
    rw [step_some hx] at hs
    exact hreact s input.action _ (h s hx) s' hs

def Carries (x : System) (input : Input) (command : Command) : Prop :=
  ∃ s p w, x.session = some s ∧ s.command input.action = some command ∧
    s.tracker.execute command ⟨x.file, input.faults⟩ = (.ok p, w)

theorem step_tracker {s s' : Session} (hx : x.session = some s)
    (hs : (x.step client path input).session = some s') :
    s'.tracker = s.tracker ∨ ∃ command, x.Carries input command ∧ s.command input.action = some command ∧
      s'.tracker = { s.tracker with tracker := s.tracker.tracker.after command } := by
  rw [step_some hx] at hs
  have hc := Session.react_carried client s input.action ⟨x.file, input.faults⟩
  rcases hr : s.react client input.action ⟨x.file, input.faults⟩ with ⟨session, w⟩
  rw [hr] at hc hs
  cases hs
  generalize hcommand : s.command input.action = command at hc
  cases hc with
  | idle tracker => exact Or.inl tracker
  | done executed =>
    exact Or.inr ⟨_, ⟨s, _, _, hx, hcommand, executed⟩, rfl, PersistentOrderTracker.execute_after executed⟩
  | failed _ tracker => exact Or.inl tracker

theorem Carries.after {s' : Session} {command : Command} (h : x.Carries input command)
    (hs : (x.step client path input).session = some s') :
    ∃ s, x.session = some s ∧ s'.tracker.tracker = s.tracker.tracker.after command := by
  obtain ⟨s, p, w, hx, hcommand, hexecuted⟩ := h
  refine ⟨s, hx, ?_⟩
  rw [step_some hx] at hs
  have hc := Session.react_carried client s input.action ⟨x.file, input.faults⟩
  rcases hr : s.react client input.action ⟨x.file, input.faults⟩ with ⟨session, w'⟩
  rw [hr] at hs
  rw [hr, hcommand] at hc
  cases hs
  cases hc with
  | done executed => rw [PersistentOrderTracker.execute_after executed]
  | failed executed =>
    rw [hexecuted] at executed
    cases executed

theorem step_find {s s' : Session} {hash : Bytes} {order : TrackedOrder} (hx : x.session = some s)
    (hs : (x.step client path input).session = some s') (hf : s.tracker.find hash = some order) :
    s'.tracker.find hash = some order ∨
      ∃ command, x.Carries input command ∧ s'.tracker.find hash = some (command.update hash order) := by
  obtain ht | ⟨command, hc, -, ht⟩ := step_tracker hx hs
  · exact Or.inl (ht ▸ hf)
  · refine Or.inr ⟨command, hc, ?_⟩
    rw [ht]
    exact OrderTracker.find_after_some command hf

theorem step_file (h : x.session = some s) (input : Input) :
    (x.step client path input).file = (s.react client input.action ⟨x.file, input.faults⟩).2.file := by
  obtain ⟨file, session, posts⟩ := x
  cases h
  rfl

def Ready (x : System) : Prop := ∀ s, x.session = some s → s.tracker.journal.Usable ∧ ∃ f, x.file = some f

theorem step_ready (h : x.Ready) : (x.step client path input).Ready := by
  intro s' hs
  cases hx : x.session with
  | none =>
    obtain ⟨journal, options, w, -, ho, hw⟩ := step_open hx hs
    obtain ⟨p, hp, rfl⟩ := open_ok ho
    obtain ⟨hj, hu, f, hf⟩ := PersistentOrderTracker.open_ready hp
    exact ⟨hj ▸ hu, f, hw.trans hf⟩
  | some s =>
    obtain ⟨hu, f, hfile⟩ := h s hx
    have hfile' : (x.step client path input).file = _ := step_file hx input
    rw [step_some hx, hfile] at hs
    rw [hfile] at hfile'
    have hcarried := Session.react_carried client s input.action ⟨some f, input.faults⟩
    rcases hr : s.react client input.action ⟨some f, input.faults⟩ with ⟨session, w⟩
    rw [hr] at hs hcarried hfile'
    cases hs
    generalize s.command input.action = command at hcarried
    cases hcarried with
    | idle tracker => exact ⟨tracker ▸ hu, f, hfile'⟩
    | done executed =>
      obtain ⟨f', hf'⟩ := PersistentOrderTracker.execute_present hu executed
      refine ⟨?_, f', hfile'.trans hf'⟩
      rw [PersistentOrderTracker.execute_after executed]
      exact hu
    | failed executed tracker =>
      obtain ⟨f', hf'⟩ := PersistentOrderTracker.execute_present hu executed
      exact ⟨tracker ▸ hu, f', hfile'.trans hf'⟩

theorem run_ready (inputs : List Input) : (Runs.run (step client path) fresh inputs).Ready :=
  Runs.run_invariant (step client path) (I := Ready) (Q := fun _ _ => True) (fun _ _ h _ => step_ready h) (fun s hs => by cases hs)
    ((Runs.along_iff _ _ _ _).mpr (fun _ _ _ => trivial))

end System

end PredictFun.Execution
