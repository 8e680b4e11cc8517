import PredictFun.Lifecycle.Faults
import PredictFun.Trading.Client

namespace PredictFun.Execution

open Base Storage Lifecycle Trading

/-- The decimal with eighteen fraction digits, without the zeros at its end. -/
def protocolDecimal (digits : Bytes) : Bytes :=
  let digits := List.replicate (19 - digits.length) (byte '0') ++ digits
  let text := digits.take (digits.length - 18) ++ byte '.' :: digits.drop (digits.length - 18)
  let trimmed := (text.reverse.dropWhile (fun c => c = byte '0')).reverse
  if trimmed.getLast? = some (byte '.') then trimmed.dropLast else trimmed

def trackedShareAmount (request : CreateOrderRequest) : Result ExactDecimal :=
  let parse (raw : Uint256) : Result ExactDecimal :=
    if raw.isZero then fail .invalidQuantity "tracked share amount must be positive" "order"
    else ExactDecimal.parse (protocolDecimal raw.text)
  match request.order.side with
  | .buy => parse request.order.takerAmount
  | .sell => parse request.order.makerAmount
  | .unknown => fail .invalidArgument "unsupported order side" "order.side"

structure SessionOptions where
  reconciliationPageSize : ℕ := 1000
  maximumReconciliationPages : ℕ := 100

structure SubmissionResult where
  trackedOrder : TrackedOrder
  mutation : Option (MutationOutcome CreateOrderReceipt)
  rejection : Option Error

structure ReconciliationResult where
  report : ReconciliationReport
  pages : ℕ
  records : ℕ

/-- Where a submission stands: its start is queued on the strand, the trading client works on it, or the client has
turned it down without an operation. -/
inductive SubmitStage
  | queued (request : CreateOrderRequest) (deadline : Option ℕ)
  | running (mutation : Mutation CreateOrderReceipt) (operation : Operation CreateOrderReceipt)
  | turnedDown (error : Error)
  | ended

structure SubmitOperation where
  hash : Bytes
  stage : SubmitStage
  -- what the handler was called with
  result : Option (Result SubmissionResult)

inductive ReconcileStage
  | queued
  | requested (after : Option Bytes)
  | ended

structure ReconcileOperation where
  generation : BitVec 64
  stage : ReconcileStage
  orders : List OrderRecord
  cursors : List Bytes
  pages : ℕ
  ownsActive : Bool
  handler : Bool
  -- the pages it has asked for, the answers it has had, what it gave to the tracker, and what the handler was called with
  requests : List (Option Bytes)
  received : List (Result OrdersPage)
  applied : List (List OrderRecord)
  delivered : List (Result ReconciliationResult)

def ReconcileOperation.initial (generation : BitVec 64) : ReconcileOperation :=
  ⟨generation, .queued, [], [], 0, false, true, [], [], [], []⟩

-- the handler is moved out before it is called
def ReconcileOperation.finish (result : Result ReconciliationResult) (op : ReconcileOperation) : ReconcileOperation :=
  { op with
    stage := .ended
    handler := false
    delivered := if op.handler then op.delivered ++ [result] else op.delivered }

def ReconcileOperation.request (after : Option Bytes) (op : ReconcileOperation) : ReconcileOperation :=
  { op with stage := .requested after, requests := op.requests ++ [after] }

structure Session where
  tracker : PersistentOrderTracker
  options : SessionOptions
  reconciliationActive : Bool
  submissions : List SubmitOperation
  reconciliations : List ReconcileOperation
  -- what the handlers of wallet events and book removals were called with
  answers : List (Result TrackedOrder)

/-- A callback on the strand; a crash of the disk takes the session with it. -/
abbrev Callback := World Byte → Option Session × World Byte

namespace Session

def «open» (journal : OrderJournal) (options : SessionOptions) : Disk Byte Error Session :=
  if options.reconciliationPageSize = 0 ∨ options.reconciliationPageSize > 1000 then
    ofResult (fail .invalidArgument "reconciliation page size must be 1..1000" "reconciliation_page_size")
  else if options.maximumReconciliationPages = 0 then
    ofResult (fail .invalidArgument "maximum reconciliation pages must be positive" "maximum_reconciliation_pages")
  else do
    let tracker ← PersistentOrderTracker.open journal
    return ⟨tracker, options, false, [], [], []⟩

def idle (s : Session) : Callback := fun w => (some s, w)

def persist {α : Type} (s : Session) (operation : Disk Byte Error (α × PersistentOrderTracker))
    (next : Result α → Session → Session) : Callback := fun w =>
  match operation w with
  | (.ok (value, p), w) => (some (next (.ok value) { s with tracker := p }), w)
  | (.error error, w) => (some (next (.error error) s), w)
  | (.crashed, w) => (none, w)

def found (s : Session) (hash : Bytes) (message field : String) : Result TrackedOrder :=
  match s.tracker.find hash with
  | none => fail .protocolError message field
  | some order => .ok order

def finishSubmission (index : ℕ) (result : Result SubmissionResult) (s : Session) : Session :=
  { s with submissions := s.submissions.modify index (fun op => { op with result := op.result.or (some result) }) }

def endSubmission (index : ℕ) (result : Result SubmissionResult) (s : Session) : Session :=
  { s with submissions := s.submissions.modify index (fun op =>
      { op with stage := .ended, result := op.result.or (some result) }) }

def dispatch (client : Client) (index : ℕ) (request : CreateOrderRequest) (deadline : Option ℕ) (s : Session) : Session :=
  { s with submissions := s.submissions.modify index (fun op =>
      { op with
        hash := request.orderHash
        stage := match client.createOrder request deadline with
          | .ok mutation => .running mutation .initial
          | .error error => .turnedDown error }) }

def startSubmission (client : Client) (index : ℕ) (request : CreateOrderRequest) (deadline : Option ℕ) (s : Session) :
    Callback :=
  match validateCreateOrder request with
  | .error error => (s.endSubmission index (.error error)).idle
  | .ok _ =>
    match trackedShareAmount request with
    | .error error => (s.endSubmission index (.error error)).idle
    | .ok amount =>
      s.persist (s.tracker.beginSubmission request.orderHash amount) (fun begun s =>
        match begun with
        | .error error => s.endSubmission index (.error error)
        | .ok _ => s.dispatch client index request deadline)

def onResult (index : ℕ) (hash : Bytes) (result : Result (MutationOutcome CreateOrderReceipt)) (s : Session) : Callback :=
  match result with
  | .error rejection =>
    s.persist (s.tracker.markSubmissionRejected hash rejection) (fun persisted s =>
      s.finishSubmission index (do
        let _ ← persisted
        let order ← s.found hash "journaled order disappeared" "hash"
        return ⟨order, none, some rejection⟩))
  | .ok outcome =>
    s.persist (s.tracker.applyCreateOutcome hash outcome) (fun persisted s =>
      s.finishSubmission index (do
        let _ ← persisted
        let order ← s.found hash "journaled order disappeared" "hash"
        return ⟨order, some outcome, none⟩))

def applyWalletEvent (event : WalletEvent) (s : Session) : Callback :=
  s.persist (s.tracker.applyWalletEvent event) (fun changed s =>
    { s with answers := s.answers ++ [do
        let _ ← changed
        s.found event.orderHash "wallet order disappeared" "order_hash"] })

def markBookRemoved (hash : Bytes) (s : Session) : Callback :=
  s.persist (s.tracker.markBookRemoved hash) (fun changed s =>
    { s with answers := s.answers ++ [do
        let _ ← changed
        s.found hash "book order disappeared" "hash"] })

def setReconciliation (index : ℕ) (op : ReconcileOperation) (s : Session) : Session :=
  { s with reconciliations := s.reconciliations.set index op }

def finishReconciliation (index : ℕ) (op : ReconcileOperation) (result : Result ReconciliationResult) (s : Session) :
    Session :=
  { s.setReconciliation index (op.finish result) with
    reconciliationActive := if op.ownsActive then false else s.reconciliationActive }

def requestPage (index : ℕ) (op : ReconcileOperation) (after : Option Bytes) (s : Session) : Session :=
  s.setReconciliation index (op.request after)

def startReconciliation (index : ℕ) (op : ReconcileOperation) (s : Session) : Callback :=
  if s.reconciliationActive then
    (s.finishReconciliation index op (fail .invalidArgument "reconciliation is already active" "")).idle
  else
    let op := { op with ownsActive := true }
    let s := { s.setReconciliation index op with reconciliationActive := true }
    s.persist (s.tracker.requireReconciliation op.generation) (fun quarantined s =>
      match quarantined with
      | .error error => s.finishReconciliation index op (.error error)
      | .ok _ => s.requestPage index op none)

def onPage (index : ℕ) (op : ReconcileOperation) (result : Result OrdersPage) (s : Session) : Callback :=
  let op := { op with received := op.received ++ [result] }
  match result with
  | .error error => (s.finishReconciliation index op (.error error)).idle
  | .ok page =>
    let op := { op with pages := op.pages + 1, orders := op.orders ++ page.orders }
    let cursor := page.cursor.getD []
    if cursor ≠ [] then
      if cursor ∈ op.cursors then
        (s.finishReconciliation index op (fail .protocolError "orders pagination cursor repeated" "cursor")).idle
      else
        let op := { op with cursors := cursor :: op.cursors }
        if op.pages ≥ s.options.maximumReconciliationPages then
          (s.finishReconciliation index op
            (fail .tooManyItems "orders reconciliation exceeded page bound" "maximum_reconciliation_pages")).idle
        else (s.requestPage index op (some cursor)).idle
    else
      let op := { op with applied := op.applied ++ [op.orders] }
      s.persist (s.tracker.reconcile op.generation op.orders) (fun report s =>
        s.finishReconciliation index op (report.map (fun report => ⟨report, op.pages, op.orders.length⟩)))

end Session

namespace SubmitOperation

def posted (op : SubmitOperation) : List HttpRequest :=
  match op.stage with
  | .running _ operation => operation.posted
  | _ => []

def trade (event : Event) (op : SubmitOperation) : SubmitOperation :=
  match op.stage with
  | .running mutation operation => { op with stage := .running mutation (operation.step mutation event) }
  | _ => op

def due (op : SubmitOperation) : Option (Result (MutationOutcome CreateOrderReceipt)) :=
  match op.result, op.stage with
  | none, .running _ operation => operation.delivered.head?
  | none, .turnedDown error => some (.error error)
  | _, _ => none

end SubmitOperation

/-- What can happen to the process: a call of the host, a callback on the strand, a callback of the trading client, an
answer of the private REST client, or its end. -/
inductive Action
  | open (journal : JournalOptions) (options : SessionOptions)
  | submit (request : CreateOrderRequest) (deadline : Option ℕ)
  | start (index : ℕ)
  | trade (index : ℕ) (event : Event)
  | resume (index : ℕ)
  | walletEvent (event : WalletEvent)
  | bookRemoved (hash : Bytes)
  | reconcile (generation : BitVec 64)
  | startReconciliation (index : ℕ)
  | page (index : ℕ) (result : Result OrdersPage)
  | exit

def Session.react (client : Client) (s : Session) : Action → Callback
  | .submit request deadline => idle { s with submissions := s.submissions ++ [⟨[], .queued request deadline, none⟩] }
  | .start index =>
    match s.submissions[index]? with
    | some ⟨_, .queued request deadline, _⟩ => s.startSubmission client index request deadline
    | _ => s.idle
  | .resume index =>
    match s.submissions[index]? with
    | some op =>
      match op.due with
      | some result => s.onResult index op.hash result
      | none => s.idle
    | none => s.idle
  | .walletEvent event => s.applyWalletEvent event
  | .bookRemoved hash => s.markBookRemoved hash
  | .reconcile generation =>
    idle { s with reconciliations := s.reconciliations ++ [.initial generation] }
  | .startReconciliation index =>
    match s.reconciliations[index]? with
    | some op =>
      match op.stage with
      | .queued => s.startReconciliation index op
      | _ => s.idle
    | none => s.idle
  | .page index result =>
    match s.reconciliations[index]? with
    | some op =>
      match op.stage with
      | .requested _ => s.onPage index op result
      | _ => s.idle
    | none => s.idle
  | .trade index event => idle { s with submissions := s.submissions.modify index (SubmitOperation.trade event) }
  | .open _ _ => s.idle
  | .exit => fun w => (none, w)

structure Post where
  hash : Bytes
  request : HttpRequest
  file : Option Bytes

structure System where
  file : Option Bytes
  session : Option Session
  posts : List Post

structure Input where
  action : Action
  faults : List Fault

namespace System

def fresh : System := ⟨none, none, []⟩

variable (client : Client) (path : Bytes)

def opened (x : System) (result : Outcome Error Session × World Byte) : System :=
  match result with
  | (.ok s, w) => { x with file := w.file, session := some s }
  | (_, w) => { x with file := w.file }

def handed (x : System) (s : Session) : Action → List Post
  | .trade index event =>
    match s.submissions[index]? with
    | some op => ((op.trade event).posted.drop op.posted.length).map (fun request => ⟨op.hash, request, x.file⟩)
    | none => []
  | _ => []

-- there is one writer: nothing else opens the journal of a session
def step (x : System) (input : Input) : System :=
  match x.session, input.action with
  | none, .open journal options => x.opened (Session.open ⟨path, journal⟩ options ⟨x.file, input.faults⟩)
  | none, _ => x
  | some s, action =>
    match s.react client action ⟨x.file, input.faults⟩ with
    | (s', w) => ⟨w.file, s', x.posts ++ x.handed s action⟩

end System

end PredictFun.Execution
