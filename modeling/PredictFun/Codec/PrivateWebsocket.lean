import PredictFun.Codec.PrivateRest
import PredictFun.Lifecycle.Decimal

namespace PredictFun.Codec

open Base

structure WireResponseError where
  code : Option Bytes

structure WireEnvelope where
  type : Option Bytes
  requestId : Option (BitVec 64)
  success : Option Bool
  error : Option WireResponseError
  topic : Option Bytes
  data : Option RawJson

structure WireDetails where
  marketId : Option (BitVec 64)
  outcomeIndex : Option (BitVec 64)
  marketQuestion : Option Bytes
  outcome : Option Bytes
  quoteType : Option Bytes
  quantity : Option RawJson
  quantityFilled : Option RawJson
  price : Option RawJson
  value : Option RawJson
  valueFilled : Option RawJson
  strategyType : Option Bytes
  categorySlug : Option Bytes

structure WireFill where
  executedPriceWei : Option RawJson
  executedSizeWei : Option RawJson
  executedValueWei : Option RawJson

structure WireFee where
  amountWei : Option RawJson
  type : Option Bytes

structure WireWalletEvent where
  type : Option Bytes
  orderId : Option RawJson
  orderHash : Option Bytes
  walletAddress : Option Bytes
  timestamp : Option RawJson
  details : Option WireDetails
  reason : Option Bytes
  kind : Option Bytes
  settlementId : Option RawJson
  fill : Option WireFill
  isMaker : Option Bool
  fee : Option WireFee

structure SubscriptionError where
  code : Bytes
  message : Bytes

structure SubscriptionResponse where
  requestId : BitVec 64
  success : Bool
  error : Option SubscriptionError

inductive PrivateWsMessage
  | subscription (response : SubscriptionResponse)
  | heartbeat (timestampMs : BitVec 64)
  | walletEvent (event : WalletEvent)

/-- The text without the quotes around it; escapes stay as they are. -/
def scalarLexeme (raw : RawJson) : Bytes := if quoted raw then (raw.drop 1).dropLast else raw

def scalarString (raw : RawJson) (field : Bytes) (limits : DecodeLimits) : Result Bytes :=
  let value := scalarLexeme raw
  if value = [] ∨ value.length > limits.maxStringBytes then
    .error (invalid "scalar string is empty or exceeds configured limit" field)
  else .ok value

/-- `std::from_chars` for a signed 64-bit integer, on a text that it reads to the end. -/
def fromChars (text : Bytes) : Option ℤ :=
  let negative := text.head? = some (byte '-')
  let magnitude := if negative then text.tail else text
  if Uint256.digits magnitude then
    let value : ℤ := (if negative then -1 else 1) * Positional.value digitValue 10 magnitude
    if -2 ^ 63 ≤ value ∧ value < 2 ^ 63 then some value else none
  else none

def positiveInt64 (raw : RawJson) (field : Bytes) : Result (BitVec 64) :=
  match fromChars (scalarLexeme raw) with
  | some value =>
    if value ≤ 0 then .error (invalid "timestamp must be a positive signed 64-bit integer" field)
    else .ok (BitVec.ofInt 64 value)
  | none => .error (invalid "timestamp must be a positive signed 64-bit integer" field)

def decimal (raw : Option RawJson) (field : Bytes) : Result ExactDecimal := do
  let raw ← required raw field
  atField field (ExactDecimal.parse (scalarLexeme raw))

def uint256 (raw : Option RawJson) (field : Bytes) : Result Uint256 := do
  let raw ← required raw field
  atField field (Uint256.parse (scalarLexeme raw))

def eventType (raw : Bytes) : EnumValue WalletEventType :=
  ⟨if raw = ascii "orderAccepted" then .orderAccepted
    else if raw = ascii "orderNotAccepted" then .orderNotAccepted
    else if raw = ascii "orderExpired" then .orderExpired
    else if raw = ascii "orderCancelled" then .orderCancelled
    else if raw = ascii "orderTransactionSubmitted" then .orderTransactionSubmitted
    else if raw = ascii "orderTransactionSuccess" then .orderTransactionSuccess
    else if raw = ascii "orderTransactionFailed" then .orderTransactionFailed
    else .unknown, raw⟩

def outcome (raw : Bytes) : EnumValue WalletOutcome :=
  ⟨if raw = ascii "YES" then .yes else if raw = ascii "NO" then .no else .unknown, raw⟩

def quoteType (raw : Bytes) : EnumValue QuoteType :=
  ⟨if raw = ascii "BID" then .bid else if raw = ascii "ASK" then .ask else .unknown, raw⟩

def settlementKind (raw : Bytes) : EnumValue SettlementKind :=
  ⟨if raw = ascii "SALE" then .sale else if raw = ascii "PURCHASE" then .purchase else .unknown, raw⟩

def feeType (raw : Bytes) : EnumValue WalletFeeType :=
  ⟨if raw = ascii "COLLATERAL" then .collateral else if raw = ascii "SHARES" then .shares else .unknown, raw⟩

def details (wire : WireDetails) (limits : DecodeLimits) : Result WalletEventDetails := do
  let marketId ← required wire.marketId (ascii "data.details.marketId")
  let outcomeIndex ← required wire.outcomeIndex (ascii "data.details.outcomeIndex")
  let marketQuestion ← required wire.marketQuestion (ascii "data.details.marketQuestion")
  let outcomeText ← required wire.outcome (ascii "data.details.outcome")
  let quoteText ← required wire.quoteType (ascii "data.details.quoteType")
  let strategyText ← required wire.strategyType (ascii "data.details.strategyType")
  let categorySlug ← required wire.categorySlug (ascii "data.details.categorySlug")
  if marketQuestion.length > limits.maxStringBytes ∨ categorySlug.length > limits.maxStringBytes then
    .error (invalid "wallet event detail string exceeds configured limit" (ascii "data.details"))
  else
    let quantity ← decimal wire.quantity (ascii "data.details.quantity")
    let quantityFilled ← decimal wire.quantityFilled (ascii "data.details.quantityFilled")
    let price ← decimal wire.price (ascii "data.details.price")
    let value ← decimal wire.value (ascii "data.details.value")
    let valueFilled ← decimal wire.valueFilled (ascii "data.details.valueFilled")
    pure ⟨⟨marketId⟩, outcomeIndex, marketQuestion, outcome outcomeText, quoteType quoteText, quantity, quantityFilled,
      price, value, valueFilled, strategy strategyText, categorySlug⟩

def fill (wire : WireFill) : Result WalletFill := do
  let price ← uint256 wire.executedPriceWei (ascii "data.fill.executedPriceWei")
  let size ← uint256 wire.executedSizeWei (ascii "data.fill.executedSizeWei")
  let value ← uint256 wire.executedValueWei (ascii "data.fill.executedValueWei")
  pure ⟨price, size, value⟩

def fee (wire : WireFee) : Result WalletFee := do
  let type ← required wire.type (ascii "data.fee.type")
  let amount ← uint256 wire.amountWei (ascii "data.fee.amountWei")
  pure ⟨amount, feeType type⟩

def optional {α γ : Type} (decode : α → Result γ) : Option α → Result (Option γ)
  | none => .ok none
  | some wire => (decode wire).map some

def WalletEvent.isTransaction (type : WalletEventType) : Bool :=
  type = .orderTransactionSubmitted ∨ type = .orderTransactionSuccess ∨ type = .orderTransactionFailed

def checkParts (event : WalletEvent) : Result WalletEvent :=
  if event.type.value = .orderNotAccepted ∧ event.reason = none then .error (missing (ascii "data.reason"))
  else if WalletEvent.isTransaction event.type.value ∧ (event.settlementId = none ∨ event.fill = none) then
    .error (missing (ascii "data.settlementId/fill"))
  else if event.type.value = .orderTransactionSubmitted ∧ event.kind = none then .error (missing (ascii "data.kind"))
  else .ok event

structure WebsocketReader where
  envelope : Bytes → Option WireEnvelope
  walletEvent : Bytes → Option WireWalletEvent
  int64 : Bytes → Option (BitVec 64)

namespace WebsocketReader

variable (reader : WebsocketReader)

def parseWire {α : Type} (read : Bytes → Option α) (json : Bytes) (limits : DecodeLimits) : Result α :=
  if json.length > limits.maxBodyBytes then
    fail .websocketFrameTooLarge "WebSocket frame exceeds configured limit" ""
  else
    match read json with
    | none => fail .malformedJson "malformed private WebSocket frame" ""
    | some value => .ok value

def decodeEvent (raw : RawJson) (limits : DecodeLimits) : Result WalletEvent := do
  let wire ← parseWire reader.walletEvent raw limits
  let type ← required wire.type (ascii "data.type")
  let orderId ← required wire.orderId (ascii "data.orderId")
  let orderHash ← required wire.orderHash (ascii "data.orderHash")
  let walletAddress ← required wire.walletAddress (ascii "data.walletAddress")
  let timestamp ← required wire.timestamp (ascii "data.timestamp")
  let wireDetails ← required wire.details (ascii "data.details")
  if type.length > limits.maxStringBytes ∨ orderHash.length > limits.maxStringBytes then
    .error (invalid "wallet event string exceeds configured limit" (ascii "data"))
  else
    let id ← scalarString orderId (ascii "data.orderId") limits
    let address ← EvmAddress.parse walletAddress
    let timestamp ← positiveInt64 timestamp (ascii "data.timestamp")
    let eventDetails ← details wireDetails limits
    let settlementId ← optional (fun raw => scalarString raw (ascii "data.settlementId") limits) wire.settlementId
    let fill ← optional fill wire.fill
    let fee ← optional fee wire.fee
    checkParts ⟨eventType type, id, orderHash, address, timestamp, eventDetails, wire.reason,
      wire.kind.map settlementKind, settlementId, fill, wire.isMaker, fee⟩

def subscriptionResponse (wire : WireEnvelope) : Result PrivateWsMessage := do
  let requestId ← required wire.requestId (ascii "requestId")
  let success ← required wire.success (ascii "success")
  if success then pure (.subscription ⟨requestId, true, none⟩)
  else
    -- the message of the server may echo the credential-bearing topic
    let code ← required (wire.error.bind WireResponseError.code) (ascii "error.code")
    pure (.subscription ⟨requestId, false, some ⟨code, []⟩⟩)

def heartbeat (data : RawJson) : Result PrivateWsMessage :=
  match reader.int64 data with
  | none => .error (invalid "heartbeat timestamp must be positive" (ascii "data"))
  | some timestamp =>
    if timestamp.toInt ≤ 0 then .error (invalid "heartbeat timestamp must be positive" (ascii "data"))
    else .ok (.heartbeat timestamp)

def decodePrivateWsFrame (json : Bytes) (limits : DecodeLimits) : Result PrivateWsMessage := do
  let wire ← parseWire reader.envelope json limits
  let type ← required wire.type (ascii "type")
  if type = ascii "R" then subscriptionResponse wire
  else if type ≠ ascii "M" then .error (invalid "unknown WebSocket envelope type" (ascii "type"))
  else
    let topic ← required wire.topic (ascii "topic")
    let data ← required wire.data (ascii "data")
    if topic = ascii "heartbeat" then reader.heartbeat data
    else if ¬ascii "predictWalletEvents/" <+: topic then
      .error (invalid "unexpected private WebSocket topic" (ascii "topic"))
    else
      let event ← reader.decodeEvent data limits
      pure (.walletEvent event)

end WebsocketReader

end PredictFun.Codec
