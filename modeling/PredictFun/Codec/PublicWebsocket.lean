import PredictFun.Codec.PrivateWebsocket

namespace PredictFun

deriving instance DecidableEq for Codec.SubscriptionError, Codec.SubscriptionResponse

inductive PublicTopicKind
  | orderbook
  | tradingStatus
  | marketStatus
  | marketChanged
  | categoryChanged
  deriving DecidableEq

structure PublicTopic where
  kind : PublicTopicKind
  parameter : BitVec 64
  decimalPrecision : Option (BitVec 8)
  deriving DecidableEq

/-- The parts of a message that the client looks at. -/
inductive PublicWsMessage
  | subscription (response : Codec.SubscriptionResponse)
  | heartbeat (timestampMs : ℤ)
  | orderbook (marketId : BitVec 64) (updateTimestampMs : ℤ)
  | tradingStatus (timestampMs : ℤ) (marketId : BitVec 64)
  | marketStatus (timestampMs : ℤ) (marketId : BitVec 64)
  | marketChanged (timestampMs : ℤ) (marketId : BitVec 64)
  | categoryChanged (timestampMs : ℤ) (categoryId : BitVec 64)
  | unknown (topic : Bytes)
  deriving DecidableEq

/-- The states of the public and of the private stream. Only the public one synchronizes, and only the private one
requires reconciliation. -/
inductive StreamState
  | stopped
  | connecting
  | subscribing
  | synchronizing
  | reconciliationRequired
  | live
  | degraded
  | reconnectWait
  deriving DecidableEq

inductive StreamEvent (δ : Type)
  | state (value : StreamState) (reason : Bytes) (generation : ℕ)
  | data (payload : δ) (generation : ℕ)
  deriving DecidableEq

def StreamEvent.isData {δ : Type} (generation : ℕ) : StreamEvent δ → Bool
  | .state .. => false
  | .data _ of => decide (of = generation)

theorem exists_data_mem {δ : Type} (generation : ℕ) (events : List (StreamEvent δ))
    (h : events.any (StreamEvent.isData generation) = true) : ∃ payload, .data payload generation ∈ events := by
  obtain ⟨event, hm, hd⟩ := List.any_eq_true.mp h
  cases event with
  | state => cases hd
  | data payload of =>
    obtain rfl : of = generation := by simpa [StreamEvent.isData] using hd
    exact ⟨payload, hm⟩

structure PublicData where
  topic : PublicTopic
  message : PublicWsMessage
  fresh : Bool
  deriving DecidableEq

structure PrivateData where
  event : WalletEvent
  reconciled : Bool

namespace Codec

inductive Outgoing
  | subscribe (requestId : ℕ) (topic : Bytes)
  | unsubscribe (requestId : ℕ) (topic : Bytes)
  | heartbeat (timestampMs : ℤ)
  deriving DecidableEq

def topicRequestText (method : String) (requestId : ℕ) (topic : Bytes) : Bytes :=
  ascii "\x7b\"method\":\"" ++ ascii method ++ ascii "\",\"requestId\":" ++ decimalText requestId ++
    ascii ",\"params\":[\"" ++ topic ++ ascii "\"]\x7d"

def Outgoing.text : Outgoing → Bytes
  | .subscribe requestId topic => topicRequestText "subscribe" requestId topic
  | .unsubscribe requestId topic => topicRequestText "unsubscribe" requestId topic
  | .heartbeat timestampMs =>
    ascii "\x7b\"method\":\"heartbeat\",\"data\":" ++ decimalText timestampMs.toNat ++ ascii "\x7d"

def maxScale : ℕ := 18

def publicTopicName (topic : PublicTopic) : Result Bytes :=
  if topic.parameter = 0 then .error (invalid "topic parameter must be positive" (ascii "topic.parameter"))
  else
    let parameter := decimalText topic.parameter.toNat
    match topic.kind with
    | .orderbook =>
      if topic.decimalPrecision.all (fun precision => maxScale < precision.toNat) then
        fail .unsupportedPrecision "orderbook topic requires a supported decimal precision" "topic.decimal_precision"
      else .ok (ascii "predictOrderbook/" ++ parameter)
    | .tradingStatus => .ok (ascii "predictTradingStatus/" ++ parameter)
    | .marketStatus => .ok (ascii "predictMarketStatus/" ++ parameter)
    | .marketChanged => .ok (ascii "predictMarketChanged/" ++ parameter)
    | .categoryChanged => .ok (ascii "predictCategoryChanged/" ++ parameter)

def encodeTopicRequest (request : ℕ → Bytes → Outgoing) (requestId : ℕ) (topic : PublicTopic) : Result Outgoing := do
  let name ← publicTopicName topic
  if 2 ^ 63 - 1 < requestId then .error (invalid "request id exceeds signed 64-bit range" (ascii "requestId"))
  else .ok (request requestId name)

def encodeSubscribeRequest : ℕ → PublicTopic → Result Outgoing := encodeTopicRequest .subscribe

def encodeUnsubscribeRequest : ℕ → PublicTopic → Result Outgoing := encodeTopicRequest .unsubscribe

def encodeHeartbeatResponse (timestampMs : ℤ) : Result Outgoing :=
  if timestampMs ≤ 0 then .error (invalid "heartbeat timestamp must be positive" (ascii "data"))
  else .ok (.heartbeat timestampMs)

def isTokenByte (c : Byte) : Bool :=
  isDigit c || decide (0x41 ≤ c.toNat ∧ c.toNat ≤ 0x5a) || decide (0x61 ≤ c.toNat ∧ c.toNat ≤ 0x7a) || c == byte '-' ||
    c == byte '_' || c == byte '.'

def encodeWalletSubscribeRequest (requestId : ℕ) (jwt : Bytes) : Result Outgoing :=
  if requestId = 0 ∨ 2 ^ 63 - 1 < requestId then
    .error (invalid "request id must fit a positive signed 64-bit integer" (ascii "requestId"))
  else if jwt = [] ∨ 16 * 1024 < jwt.length then
    .error (invalid "JWT is empty or exceeds configured limit" (ascii "jwt"))
  else if ¬jwt.all isTokenByte then
    .error (invalid "JWT contains a character unsafe for a topic" (ascii "jwt"))
  else .ok (.subscribe requestId (ascii "predictWalletEvents/" ++ jwt))

end Codec

end PredictFun
