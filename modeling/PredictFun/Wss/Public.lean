import PredictFun.Base.Runs
import PredictFun.Wss.Client

namespace PredictFun.Wss

open Base Codec

structure TopicRuntime where
  name : Bytes
  topic : PublicTopic
  acknowledged : Bool := false
  fresh : Bool := false
  lastTimestamp : Option ℤ := none
  deriving DecidableEq

def TopicRuntime.reset (runtime : TopicRuntime) : TopicRuntime :=
  { runtime with acknowledged := false, fresh := false, lastTimestamp := none }

structure PendingRequest where
  requestId : ℕ
  subscribe : Bool
  topicName : Bytes
  deriving DecidableEq

structure PublicProtocol where
  topics : List TopicRuntime := []
  pending : List PendingRequest := []
  deriving DecidableEq

abbrev PublicClient := Client PublicProtocol PublicData

/-- The decoder of frames, with the precision of a market. -/
abbrev FrameDecoder := Bytes → (BitVec 64 → Option (BitVec 8)) → Result PublicWsMessage

namespace Public

open Client

def protocol : Protocol PublicProtocol where
  title := "public"
  reset := fun protocol => ⟨protocol.topics.map TopicRuntime.reset, []⟩
  clear := fun protocol => { protocol with pending := [] }
  connectClosesSession := false

def snapshotBacked : PublicTopicKind → Bool
  | .orderbook | .tradingStatus | .marketStatus => true
  | .marketChanged | .categoryChanged => false

def messageTimestamp : PublicWsMessage → Option ℤ
  | .orderbook _ timestamp | .tradingStatus timestamp _ | .marketStatus timestamp _ | .marketChanged timestamp _
  | .categoryChanged timestamp _ => some timestamp
  | _ => none

def messageKind : PublicWsMessage → Option PublicTopicKind
  | .orderbook .. => some .orderbook
  | .tradingStatus .. => some .tradingStatus
  | .marketStatus .. => some .marketStatus
  | .marketChanged .. => some .marketChanged
  | .categoryChanged .. => some .categoryChanged
  | _ => none

def messageParameter : PublicWsMessage → Option (BitVec 64)
  | .orderbook parameter _ | .tradingStatus _ parameter | .marketStatus _ parameter | .marketChanged _ parameter
  | .categoryChanged _ parameter => some parameter
  | _ => none

def contains (name : Bytes) (topics : List TopicRuntime) : Bool := topics.any (fun runtime => runtime.name = name)

def emplace (name : Bytes) (topic : PublicTopic) (topics : List TopicRuntime) : List TopicRuntime :=
  if contains name topics then topics
  else topics.orderedInsert (fun a b => a.name ≤ b.name) { name := name, topic := topic }

def erase (name : Bytes) (topics : List TopicRuntime) : List TopicRuntime :=
  topics.filter (fun runtime => runtime.name ≠ name)

def modify (name : Bytes) (update : TopicRuntime → TopicRuntime) (topics : List TopicRuntime) : List TopicRuntime :=
  topics.map (fun runtime => if runtime.name = name then update runtime else runtime)

def route (message : PublicWsMessage) (topics : List TopicRuntime) : Option TopicRuntime :=
  match messageKind message, messageParameter message with
  | some kind, some parameter =>
    topics.find? (fun runtime => runtime.topic.kind = kind ∧ runtime.topic.parameter = parameter)
  | _, _ => none

def withTopics (update : List TopicRuntime → List TopicRuntime) (s : PublicClient) : PublicClient :=
  { s with protocol := { s.protocol with topics := update s.protocol.topics } }

def withPending (update : List PendingRequest → List PendingRequest) (s : PublicClient) : PublicClient :=
  { s with protocol := { s.protocol with pending := update s.protocol.pending } }

def forget (request : PendingRequest) (s : PublicClient) : PublicClient :=
  withPending (fun pending => pending.filter (fun other => other.requestId ≠ request.requestId)) s

section

variable (options : ClientOptions) (decode : FrameDecoder) (env : Env)

/-- The names and topics of a list up to the first that is refused, with the reason for the refusal. -/
def enrol : List PublicTopic → List Bytes → List TopicRuntime → List TopicRuntime × Option Bytes
  | [], _, topics => (topics, none)
  | topic :: rest, unique, topics =>
    match publicTopicName topic with
    | .error error => (topics, some error.message)
    | .ok name =>
      if name ∈ unique then (topics, some (ascii "duplicate public WebSocket topic"))
      else enrol rest (name :: unique) (emplace name topic topics)

def begin (topics : List PublicTopic) (s : PublicClient) : PublicClient :=
  if s.started = true then s
  else if options.maxPendingEvents = 0 then hardStop protocol (ascii "event queue capacity must be positive") s
  else if options.target ≠ ascii "/ws" ∨ options.host = [] ∨ options.port = [] then
    hardStop protocol (ascii "public WebSocket endpoint must use the /ws path") s
  else if options.apiKey = false then hardStop protocol (ascii "public WebSocket API key is required") s
  else if topics = [] then hardStop protocol (ascii "at least one public topic is required") s
  else
    let admitted := enrol topics [] s.protocol.topics
    let s := withTopics (fun _ => admitted.1) s
    match admitted.2 with
    | some reason => hardStop protocol reason s
    | none => launch protocol env s

def sendSubscription (name : Bytes) (isSubscribe : Bool) (s : PublicClient) : PublicClient :=
  match s.protocol.topics.find? (fun runtime => runtime.name = name) with
  | none => s
  | some runtime =>
    let requestId := s.ledger.nextRequestId
    match if isSubscribe then encodeSubscribeRequest requestId runtime.topic
      else encodeUnsubscribeRequest requestId runtime.topic with
    | .error error => scheduleReconnect protocol env error.message s.takeRequestId
    | .ok outgoing =>
      let request : PendingRequest := ⟨requestId, isSubscribe, name⟩
      write protocol env outgoing (withPending (· ++ [request]) s.takeRequestId)

def sendAll (names : List Bytes) (s : PublicClient) : PublicClient :=
  names.foldl (fun s name => sendSubscription env name true s) s

def opened (generation : ℕ) (result : Option Bytes) (s : PublicClient) : PublicClient :=
  if s.started = false ∨ generation ≠ s.generation then s
  else
    match result with
    | some reason => scheduleReconnect protocol env reason s
    | none =>
      let s := readNext protocol env generation (armHeartbeat (openSession s))
      armAckTimeout generation (sendAll env (s.protocol.topics.map TopicRuntime.name) s)

def freshness (topics : List TopicRuntime) : StreamState × String :=
  if !topics.all TopicRuntime.acknowledged then (.subscribing, "awaiting subscription acks")
  else if !topics.all TopicRuntime.fresh then
    (.synchronizing, "subscription acknowledged; awaiting best-effort snapshots")
  else (.live, "all desired public topics are fresh")

def updateFreshnessState (s : PublicClient) : PublicClient :=
  if s.started = false then s
  else
    let target := freshness s.protocol.topics
    let s :=
      if target.1 = .live ∧ s.state ≠ .live then
        { s with ledger := { s.ledger with backoff := s.ledger.backoff.markStable } }
      else s
    setState target.1 (ascii target.2) false s

def acknowledge (runtime : TopicRuntime) : TopicRuntime :=
  { runtime with acknowledged := true, fresh := runtime.fresh || !snapshotBacked runtime.topic.kind }

def handleResponse (response : SubscriptionResponse) (s : PublicClient) : PublicClient :=
  match s.protocol.pending.find? (fun request => request.requestId = response.requestId.toNat) with
  | none => scheduleReconnect protocol env (ascii "unexpected subscription response id") s
  | some request =>
    let s := forget request s
    if response.success = false then
      let reason := match response.error with
        | some error => error.code
        | none => ascii "subscription rejected"
      scheduleReconnect protocol env reason s
    else if request.subscribe then
      if contains request.topicName s.protocol.topics then
        updateFreshnessState (withTopics (modify request.topicName acknowledge) s)
      else scheduleReconnect protocol env (ascii "acknowledged topic is no longer desired") s
    else updateFreshnessState (withTopics (erase request.topicName) s)

def regressed (message : PublicWsMessage) (runtime : TopicRuntime) : Bool :=
  match messageTimestamp message, runtime.lastTimestamp with
  | some timestamp, some last => decide (timestamp < last)
  | _, _ => false

def refresh (message : PublicWsMessage) (runtime : TopicRuntime) : TopicRuntime :=
  { runtime with fresh := true, lastTimestamp := messageTimestamp message <|> runtime.lastTimestamp }

def handleData (message : PublicWsMessage) (s : PublicClient) : PublicClient :=
  if messageKind message = none ∨ messageParameter message = none then
    scheduleReconnect protocol env (ascii "message cannot be mapped to a public topic") s
  else
    match route message s.protocol.topics with
    | none => scheduleReconnect protocol env (ascii "message arrived for an unsubscribed topic") s
    | some runtime =>
      if regressed message runtime then
        scheduleReconnect protocol env (ascii "topic timestamp regressed; resync required")
          (s.count (fun stats => { stats with staleFrames := stats.staleFrames + 1 }))
      else
        let s := updateFreshnessState (withTopics (modify runtime.name (refresh message)) s)
        let event := StreamEvent.data ⟨runtime.topic, message, true⟩ s.generation
        if s.queue.full then
          scheduleReconnect protocol env (ascii "bounded event queue overflow; resync required")
            (count (fun stats => { stats with queueOverflows := stats.queueOverflows + 1 })
              { s with queue := s.queue.refuse event })
        else { s with queue := s.queue.push event }

def resolver (topics : List TopicRuntime) (marketId : BitVec 64) : Option (BitVec 8) :=
  topics.findSome? (fun runtime => if runtime.topic.parameter = marketId then runtime.topic.decimalPrecision else none)

def handleMessage (message : PublicWsMessage) (s : PublicClient) : PublicClient :=
  match message with
  | .heartbeat timestampMs => echoHeartbeat protocol env timestampMs s
  | .subscription response => handleResponse env response s
  | .unknown _ => setState .degraded (ascii "unknown public topic received; ignored") true s
  | _ => handleData env message s

def received (generation : ℕ) (result : Except Bytes Bytes) (s : PublicClient) : PublicClient :=
  if s.started = false ∨ generation ≠ s.generation then s
  else
    match result with
    | .error reason => scheduleReconnect protocol env reason s
    | .ok text =>
      let s := s.count (fun stats => { stats with messages := stats.messages + 1 })
      match decode text (resolver s.protocol.topics) with
      | .error error =>
        scheduleReconnect protocol env error.message
          (s.count (fun stats => { stats with malformedFrames := stats.malformedFrames + 1 }))
      | .ok message => readNext protocol env generation (handleMessage env message s)

def ackExpired (generation : ℕ) (s : PublicClient) : PublicClient :=
  if s.started = true ∧ generation = s.generation ∧ s.protocol.pending ≠ [] then
    scheduleReconnect protocol env (ascii "subscription acknowledgement timed out") s
  else s

def addTopic (topic : PublicTopic) (s : PublicClient) : PublicClient :=
  match publicTopicName topic with
  | .error error => setState .degraded error.message true s
  | .ok name =>
    if contains name s.protocol.topics then s
    else
      let s := withTopics (emplace name topic) s
      if s.started = true ∧ s.sessionOpen = true ∧ s.channel = true then
        armAckTimeout s.generation (sendSubscription env name true s)
      else s

def removeTopic (topic : PublicTopic) (s : PublicClient) : PublicClient :=
  match publicTopicName topic with
  | .error _ => s
  | .ok name =>
    if ¬contains name s.protocol.topics then s
    else if s.started = true ∧ s.sessionOpen = true ∧ s.channel = true then
      armAckTimeout s.generation (sendSubscription env name false s)
    else withTopics (erase name) s

inductive Input
  | start (topics : List PublicTopic)
  | stop
  | subscribe (topic : PublicTopic)
  | unsubscribe (topic : PublicTopic)
  | opened (generation : ℕ) (result : Option Bytes)
  | received (generation : ℕ) (result : Except Bytes Bytes)
  | wrote (generation : ℕ) (result : Option Bytes)
  | reconnectExpired
  | heartbeatExpired (generation : ℕ)
  | ackExpired (generation : ℕ)
  | pop

def handle (input : Input) : PublicClient → PublicClient :=
  match input with
  | .start topics => begin options env topics
  | .stop => requestStop protocol
  | .subscribe topic => addTopic env topic
  | .unsubscribe topic => removeTopic env topic
  | .opened generation result => completing (.opening generation) (opened env generation result)
  | .received generation result => completing (.reading generation) (received decode env generation result)
  | .wrote generation result => completing (.writing generation) (wrote protocol env generation result)
  | .reconnectExpired => expiring .reconnect (Client.reconnectExpired protocol env)
  | .heartbeatExpired generation => expiring (.heartbeat generation) (Client.heartbeatExpired protocol env generation)
  | .ackExpired generation => expiring (.acknowledgement generation) (ackExpired env generation)
  | .pop => fun s => { s with queue := s.queue.pop }

end

def step (options : ClientOptions) (decode : FrameDecoder) (s : PublicClient) (input : Input × Env) : PublicClient :=
  guarded (handle options decode input.2 input.1) s

def initial (options : ClientOptions) (backoff : Net.ReconnectBackoff) : PublicClient where
  queue := { capacity := options.maxPendingEvents }
  protocol := {}
  ledger := { backoff := backoff }

def tableDecoder (table : List (Bytes × PublicWsMessage)) : FrameDecoder := fun text _ =>
  match table.lookup text with
  | some message => .ok message
  | none => .error (invalid "malformed frame" [])

def bookFrame (timestampMs : ℕ) : Bytes :=
  ascii "\x7b\"type\":\"M\",\"topic\":\"predictOrderbook/42\",\"data\":\x7b\"version\":1,\"marketId\":42,\"updateTimestampMs\":" ++
    decimalText timestampMs ++
    ascii ",\"orderCount\":2,\"asks\":[[0.52,2]],\"bids\":[[0.51,3]],\"settlementsPending\":0\x7d\x7d"

def testDecoder : FrameDecoder :=
  tableDecoder
    [(ackFrame 1, .subscription ⟨1, true, none⟩), (ackFrame 2, .subscription ⟨2, true, none⟩),
      (heartbeatFrame 123456789, .heartbeat 123456789), (bookFrame 1000, .orderbook 42 1000),
      (bookFrame 1001, .orderbook 42 1001), (bookFrame 1999, .orderbook 42 1999), (bookFrame 2000, .orderbook 42 2000)]

def orderbook : PublicTopic := ⟨.orderbook, 42, some 2⟩

def marketChanged : PublicTopic := ⟨.marketChanged, 43, none⟩

/-- A wire format for short runs: the kind of a frame, and a number. -/
def shortDecoder : FrameDecoder := fun text _ =>
  match text with
  | [0, n] => .ok (.subscription ⟨n.zeroExtend 64, true, none⟩)
  | [1, n] => .ok (.orderbook 42 n.toNat)
  | [2, n] => .ok (.heartbeat n.toNat)
  | _ => .error (invalid "malformed frame" [])

def shortRun (capacity : ℕ) (inputs : List (Input × Env)) : PublicClient :=
  Runs.run (step { maxPendingEvents := capacity } shortDecoder) (initial { maxPendingEvents := capacity } (.ofPolicy {} 1)) inputs

end Public

end PredictFun.Wss
