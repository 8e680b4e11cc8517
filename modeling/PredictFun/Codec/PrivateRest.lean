import PredictFun.Types.Evm

namespace PredictFun.Codec

structure DecodeLimits where
  maxBodyBytes : ℕ := 2 * 1024 * 1024
  maxMarkets : ℕ := 1000
  maxStringBytes : ℕ := 256 * 1024

abbrev RawJson := Bytes

structure WireContractOrder where
  hash : Option Bytes
  salt : Option RawJson
  maker : Option Bytes
  signer : Option Bytes
  taker : Option Bytes
  tokenId : Option RawJson
  makerAmount : Option RawJson
  takerAmount : Option RawJson
  expiration : Option RawJson
  nonce : Option RawJson
  feeRateBps : Option RawJson
  side : Option (BitVec 32)
  signatureType : Option (BitVec 32)
  signature : Option Bytes

structure WireOrderRecord where
  order : Option WireContractOrder
  id : Option Bytes
  marketId : Option (BitVec 64)
  currency : Option Bytes
  amount : Option RawJson
  amountFilled : Option RawJson
  isNegRisk : Option Bool
  isYieldBearing : Option Bool
  strategy : Option Bytes
  status : Option Bytes
  rewardEarningRate : Option RawJson

structure WireOrdersResponse where
  success : Option Bool
  cursor : Option Bytes
  data : Option (List WireOrderRecord)

structure WireOrderResponse where
  success : Option Bool
  data : Option WireOrderRecord

def missing (field : Bytes) : Error := ⟨.missingField, ascii "required field is missing", field, 0, 0⟩

def invalid (message : String) (field : Bytes) : Error := ⟨.invalidField, ascii message, field, 0, 0⟩

def required {α : Type} (value : Option α) (field : Bytes) : Result α :=
  match value with
  | none => .error (missing field)
  | some a => .ok a

def atField {α : Type} (field : Bytes) (result : Result α) : Result α :=
  result.mapError (fun error => { error with field := field })

def decimalText (n : ℕ) : Bytes := (Nat.toDigits 10 n).map byte

def integerText (value : ℤ) : Bytes := if value < 0 then byte '-' :: decimalText value.natAbs else decimalText value.natAbs

def quoted (text : Bytes) : Bool :=
  decide (2 ≤ text.length) && text.head? == some (byte '"') && text.getLast? == some (byte '"')

def strategy (raw : Bytes) : EnumValue OrderStrategy :=
  if raw = ascii "MARKET" then ⟨.market, raw⟩
  else if raw = ascii "LIMIT" then ⟨.limit, raw⟩
  else ⟨.unknown, raw⟩

def status (raw : Bytes) : EnumValue OrderStatus :=
  if raw = ascii "OPEN" then ⟨.open, raw⟩
  else if raw = ascii "MATCHED" ∨ raw = ascii "FILLED" then ⟨.matched, raw⟩
  else if raw = ascii "CANCELLED" ∨ raw = ascii "CANCELED" then ⟨.cancelled, raw⟩
  else if raw = ascii "EXPIRED" then ⟨.expired, raw⟩
  else if raw = ascii "INVALIDATED" then ⟨.invalidated, raw⟩
  else if raw = ascii "FAILED" ∨ raw = ascii "REJECTED" then ⟨.failed, raw⟩
  else ⟨.unknown, raw⟩

def contractSide (side : BitVec 32) : EnumValue ContractSide :=
  ⟨if side = 0 then .buy else if side = 1 then .sell else .unknown, decimalText side.toNat⟩

def signatureType (type : BitVec 32) : EnumValue SignatureType :=
  ⟨if type = 0 then .eoa else if type = 1 then .polyProxy else if type = 2 then .polyGnosisSafe else .unknown,
    decimalText type.toNat⟩

def takerAddress (text field : Bytes) : Result (Option EvmAddress) :=
  if text = ascii "0x0000000000000000000000000000000000000000" then .ok none
  else (atField field (EvmAddress.parse text)).map some

/-- What the JSON library makes of a text; `none` where it reports an error. -/
structure RestReader where
  string : Bytes → Option Bytes
  orders : Bytes → Option WireOrdersResponse
  order : Bytes → Option WireOrderResponse

namespace RestReader

variable (reader : RestReader)

def parseWire {α : Type} (read : Bytes → Option α) (json : Bytes) (limits : DecodeLimits) : Result α :=
  if json.length > limits.maxBodyBytes then fail .bodyTooLarge "response exceeds configured body limit" ""
  else
    match read json with
    | none => fail .malformedJson "Predict.fun response contains malformed JSON" ""
    | some value => .ok value

def rawScalar (raw : RawJson) (field : Bytes) : Result Bytes :=
  if quoted raw then
    match reader.string raw with
    | none => .error (invalid "invalid quoted numeric value" field)
    | some value => .ok value
  else .ok raw

def exact (raw : RawJson) (field : Bytes) : Result ExactDecimal := do
  let text ← reader.rawScalar raw field
  atField field (ExactDecimal.parse text)

def uint256 (raw : RawJson) (field : Bytes) : Result Uint256 := do
  let text ← reader.rawScalar raw field
  atField field (Uint256.parse text)

def contractOrder (wire : WireContractOrder) (path : Bytes) : Result ContractOrder := do
  let hash ← required wire.hash (path ++ ascii ".hash")
  let salt ← required wire.salt (path ++ ascii ".salt")
  let maker ← required wire.maker (path ++ ascii ".maker")
  let signer ← required wire.signer (path ++ ascii ".signer")
  let taker ← required wire.taker (path ++ ascii ".taker")
  let tokenId ← required wire.tokenId (path ++ ascii ".tokenId")
  let makerAmount ← required wire.makerAmount (path ++ ascii ".makerAmount")
  let takerAmount ← required wire.takerAmount (path ++ ascii ".takerAmount")
  let expiration ← required wire.expiration (path ++ ascii ".expiration")
  let nonce ← required wire.nonce (path ++ ascii ".nonce")
  let feeRateBps ← required wire.feeRateBps (path ++ ascii ".feeRateBps")
  let side ← required wire.side (path ++ ascii ".side")
  let type ← required wire.signatureType (path ++ ascii ".signatureType")
  let signature ← required wire.signature (path ++ ascii ".signature")
  let salt ← reader.uint256 salt (path ++ ascii ".salt")
  let maker ← atField (path ++ ascii ".maker") (EvmAddress.parse maker)
  let signer ← atField (path ++ ascii ".signer") (EvmAddress.parse signer)
  let tokenId ← reader.uint256 tokenId (path ++ ascii ".tokenId")
  let makerAmount ← reader.uint256 makerAmount (path ++ ascii ".makerAmount")
  let takerAmount ← reader.uint256 takerAmount (path ++ ascii ".takerAmount")
  let expiration ← reader.uint256 expiration (path ++ ascii ".expiration")
  let nonce ← reader.uint256 nonce (path ++ ascii ".nonce")
  let feeRateBps ← reader.uint256 feeRateBps (path ++ ascii ".feeRateBps")
  let taker ← takerAddress taker (path ++ ascii ".taker")
  pure ⟨hash, salt, maker, signer, taker, tokenId, makerAmount, takerAmount, expiration, nonce, feeRateBps,
    contractSide side, signatureType type, signature⟩

def orderRecord (item : WireOrderRecord) (path : Bytes) : Result OrderRecord := do
  let order ← required item.order (path ++ ascii ".order")
  let id ← required item.id (path ++ ascii ".id")
  let marketId ← required item.marketId (path ++ ascii ".marketId")
  let currency ← required item.currency (path ++ ascii ".currency")
  let amount ← required item.amount (path ++ ascii ".amount")
  let amountFilled ← required item.amountFilled (path ++ ascii ".amountFilled")
  let isNegRisk ← required item.isNegRisk (path ++ ascii ".isNegRisk")
  let isYieldBearing ← required item.isYieldBearing (path ++ ascii ".isYieldBearing")
  let strategyText ← required item.strategy (path ++ ascii ".strategy")
  let statusText ← required item.status (path ++ ascii ".status")
  let rewardEarningRate ← required item.rewardEarningRate (path ++ ascii ".rewardEarningRate")
  let order ← reader.contractOrder order (path ++ ascii ".order")
  let amount ← reader.exact amount (path ++ ascii ".amount")
  let amountFilled ← reader.exact amountFilled (path ++ ascii ".amountFilled")
  let rewardEarningRate ← reader.exact rewardEarningRate (path ++ ascii ".rewardEarningRate")
  pure ⟨order, id, ⟨marketId⟩, currency, amount, amountFilled, isNegRisk, isYieldBearing, strategy strategyText,
    status statusText, rewardEarningRate⟩

def itemPath (index : ℕ) : Bytes := ascii "data[" ++ decimalText index ++ ascii "]"

def orderRecords : ℕ → List WireOrderRecord → Result (List OrderRecord)
  | _, [] => .ok []
  | index, item :: items => do
    let parsed ← reader.orderRecord item (itemPath index)
    let rest ← orderRecords (index + 1) items
    pure (parsed :: rest)

def decodeOrdersResponse (json : Bytes) (limits : DecodeLimits) : Result OrdersPage := do
  let wire ← parseWire reader.orders json limits
  if wire.success ≠ some true then .error (invalid "Predict.fun returned an unsuccessful response" (ascii "success"))
  else
    let data ← required wire.data (ascii "data")
    if data.length > limits.maxMarkets then fail .tooManyItems "too many orders" "data"
    else
      let orders ← reader.orderRecords 0 data
      pure ⟨wire.cursor, orders⟩

def decodeOrderResponse (json : Bytes) (limits : DecodeLimits) : Result OrderRecord := do
  let wire ← parseWire reader.order json limits
  if wire.success ≠ some true then .error (invalid "Predict.fun returned an unsuccessful response" (ascii "success"))
  else
    let data ← required wire.data (ascii "data")
    reader.orderRecord data (ascii "data")

theorem decodeOrderResponse_of_read {json : Bytes} {limits : DecodeLimits} {wire : WireOrderResponse}
    {data : WireOrderRecord} (hl : json.length ≤ limits.maxBodyBytes) (hr : reader.order json = some wire)
    (hs : wire.success = some true) (hd : wire.data = some data) :
    reader.decodeOrderResponse json limits = reader.orderRecord data (ascii "data") := by
  have hp : parseWire reader.order json limits = .ok wire := by
    rw [parseWire, if_neg (not_lt.mpr hl), hr]
  rw [decodeOrderResponse, hp]
  simp only [bind, Except.bind, hs, ne_eq, not_true_eq_false, if_false, hd, required]

end RestReader

end PredictFun.Codec
