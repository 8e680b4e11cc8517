import PredictFun.Base.Runs
import PredictFun.Wss.Client

namespace PredictFun.Wss

open Base Codec

structure PrivateProtocol where
  awaitingAck : Bool := false
  reconciled : Bool := false
  pendingRequestId : ℕ := 0
  deriving DecidableEq

abbrev PrivateClient := Client PrivateProtocol PrivateData

namespace Private

open Client

def protocol : Protocol PrivateProtocol where
  title := "private"
  reset := fun protocol => { protocol with awaitingAck := false, reconciled := false }
  clear := fun protocol => { protocol with awaitingAck := false, reconciled := false }
  connectClosesSession := true

section

variable (options : ClientOptions) (reader : WebsocketReader) (env : Env)

def begin (s : PrivateClient) : PrivateClient :=
  if s.started = true then s
  else if options.maxPendingEvents = 0 then hardStop protocol (ascii "event queue capacity must be positive") s
  else if options.target ≠ ascii "/ws" ∨ options.host = [] ∨ options.port = [] then
    hardStop protocol (ascii "private WebSocket endpoint must use the /ws path") s
  else if options.apiKey = false ∨ options.jwt = false then
    hardStop protocol (ascii "private WebSocket API key and JWT providers are required") s
  else launch protocol env s

def subscribe (s : PrivateClient) : PrivateClient :=
  match env.jwt with
  | none => scheduleReconnect protocol env (ascii "private WebSocket JWT provider failed") s
  | some [] => scheduleReconnect protocol env (ascii "private WebSocket JWT is empty") s
  | some (c :: jwt) =>
    let requestId := s.ledger.nextRequestId
    let s := s.takeRequestId
    match encodeWalletSubscribeRequest requestId (c :: jwt) with
    | .error error => scheduleReconnect protocol env error.message s
    | .ok outgoing =>
      write protocol env outgoing
        { s with protocol := { s.protocol with pendingRequestId := requestId, awaitingAck := true } }

def opened (generation : ℕ) (result : Option Bytes) (s : PrivateClient) : PrivateClient :=
  if s.started = false ∨ generation ≠ s.generation then s
  else
    match result with
    | some reason => scheduleReconnect protocol env reason s
    | none =>
      armAckTimeout generation (subscribe env (readNext protocol env generation (armHeartbeat (openSession s))))

def handleResponse (response : SubscriptionResponse) (s : PrivateClient) : PrivateClient :=
  if s.protocol.awaitingAck = false ∨ response.requestId.toNat ≠ s.protocol.pendingRequestId then
    scheduleReconnect protocol env (ascii "unexpected private subscription response id") s
  else
    let s := { s with protocol := { s.protocol with awaitingAck := false } }
    if response.success = false then
      let reason := match response.error with
        | some error => error.code
        | none => ascii "subscription rejected"
      scheduleReconnect protocol env reason s
    else
      let s := { s with protocol := { s.protocol with reconciled := false } }
      setState .reconciliationRequired (ascii "wallet subscription active; REST reconciliation required") true
        (s.count (fun stats => { stats with reconciliationRequests := stats.reconciliationRequests + 1 }))

def handleEvent (generation : ℕ) (event : WalletEvent) (s : PrivateClient) : PrivateClient :=
  let event := StreamEvent.data ⟨event, s.protocol.reconciled⟩ s.generation
  if s.queue.full then
    scheduleReconnect protocol env (ascii "bounded event queue overflow; reconciliation required")
      (count (fun stats => { stats with queueOverflows := stats.queueOverflows + 1 })
        { s with queue := s.queue.refuse event })
  else readNext protocol env generation { s with queue := s.queue.push event }

def received (generation : ℕ) (result : Except Bytes Bytes) (s : PrivateClient) : PrivateClient :=
  if s.started = false ∨ generation ≠ s.generation then s
  else
    match result with
    | .error reason => scheduleReconnect protocol env reason s
    | .ok text =>
      let s := s.count (fun stats => { stats with messages := stats.messages + 1 })
      match reader.decodePrivateWsFrame text options.decodeLimits with
      | .error error =>
        scheduleReconnect protocol env error.message
          (s.count (fun stats => { stats with malformedFrames := stats.malformedFrames + 1 }))
      | .ok (.heartbeat timestampMs) => readNext protocol env generation (echoHeartbeat protocol env timestampMs.toInt s)
      | .ok (.subscription response) => readNext protocol env generation (handleResponse env response s)
      | .ok (.walletEvent event) => handleEvent env generation event s

def reconcile (generation : ℕ) (s : PrivateClient) : PrivateClient :=
  if s.started = false ∨ generation ≠ s.generation ∨ s.protocol.awaitingAck = true ∨ s.sessionOpen = false ∨
      s.state ≠ .reconciliationRequired then s
  else
    setState .live (ascii "wallet events live; REST reconciliation complete") true
      { s with
        protocol := { s.protocol with reconciled := true }
        ledger := { s.ledger with backoff := s.ledger.backoff.markStable } }

def ackExpired (generation : ℕ) (s : PrivateClient) : PrivateClient :=
  if s.started = true ∧ generation = s.generation ∧ s.protocol.awaitingAck = true then
    scheduleReconnect protocol env (ascii "private subscription acknowledgement timed out") s
  else s

inductive Input
  | start
  | stop
  | markReconciled (generation : ℕ)
  | opened (generation : ℕ) (result : Option Bytes)
  | received (generation : ℕ) (result : Except Bytes Bytes)
  | wrote (generation : ℕ) (result : Option Bytes)
  | reconnectExpired
  | heartbeatExpired (generation : ℕ)
  | ackExpired (generation : ℕ)
  | pop

def handle (input : Input) : PrivateClient → PrivateClient :=
  match input with
  | .start => begin options env
  | .stop => requestStop protocol
  | .markReconciled generation => reconcile generation
  | .opened generation result => completing (.opening generation) (opened env generation result)
  | .received generation result => completing (.reading generation) (received options reader env generation result)
  | .wrote generation result => completing (.writing generation) (wrote protocol env generation result)
  | .reconnectExpired => expiring .reconnect (Client.reconnectExpired protocol env)
  | .heartbeatExpired generation => expiring (.heartbeat generation) (Client.heartbeatExpired protocol env generation)
  | .ackExpired generation => expiring (.acknowledgement generation) (ackExpired env generation)
  | .pop => fun s => { s with queue := s.queue.pop }

end

def step (options : ClientOptions) (reader : WebsocketReader) (s : PrivateClient) (input : Input × Env) : PrivateClient :=
  guarded (handle options reader input.2 input.1) s

def initial (options : ClientOptions) (backoff : Net.ReconnectBackoff) : PrivateClient where
  queue := { capacity := options.maxPendingEvents }
  protocol := {}
  ledger := { backoff := backoff }

def testReader : WebsocketReader where
  envelope := fun text => List.lookup text
    [(ackFrame 1, ⟨some (ascii "R"), some 1, some true, none, none, none⟩),
      (heartbeatFrame 123456789,
        ⟨some (ascii "M"), none, none, none, some (ascii "heartbeat"), some (decimalText 123456789)⟩)]
  walletEvent := fun _ => none
  int64 := fun text => (fromChars text).map (BitVec.ofInt 64)

def walletWire : WireWalletEvent where
  type := some (ascii "orderAccepted")
  orderId := some (decimalText 123)
  orderHash := some (ascii "0xabc")
  walletAddress := some (byte '0' :: byte 'x' :: List.replicate 40 (byte '1'))
  timestamp := some (decimalText 1736696400000)
  details := some
    { marketId := some 42
      outcomeIndex := some 0
      marketQuestion := some (ascii "?")
      outcome := some (ascii "YES")
      quoteType := some (ascii "BID")
      quantity := some (decimalText 1)
      quantityFilled := some (decimalText 0)
      price := some (decimalText 0)
      value := some (decimalText 0)
      valueFilled := some (decimalText 0)
      strategyType := some (ascii "LIMIT")
      categorySlug := some (ascii "crypto") }
  reason := none
  kind := none
  settlementId := none
  fill := none
  isMaker := none
  fee := none

def shortReader : WebsocketReader where
  envelope := fun text =>
    match text with
    | [0, n] => some ⟨some (ascii "R"), some (n.zeroExtend 64), some true, none, none, none⟩
    | [1, _] => some ⟨some (ascii "M"), none, none, none, some (ascii "predictWalletEvents/"), some []⟩
    | [2, n] => some ⟨some (ascii "M"), none, none, none, some (ascii "heartbeat"), some [n]⟩
    | _ => none
  walletEvent := fun _ => some walletWire
  int64 := fun text => text.head?.map (BitVec.zeroExtend 64)

def shortRun (capacity : ℕ) (inputs : List (Input × Env)) : PrivateClient :=
  Runs.run (step { maxPendingEvents := capacity } shortReader) (initial { maxPendingEvents := capacity } (.ofPolicy {} 1)) inputs

end Private

end PredictFun.Wss
