import PredictFun.Codec.PrivateRest
import PredictFun.Lifecycle.Decimal

namespace PredictFun

def Uint256.toNat (value : Uint256) : ℕ := Base.Positional.value digitValue 10 value.text

namespace Codec

structure WireContractOrderWrite where
  hash : Bytes
  salt : Bytes
  maker : Bytes
  signer : Bytes
  taker : Bytes
  tokenId : Bytes
  makerAmount : Bytes
  takerAmount : Bytes
  expiration : BitVec 64
  nonce : Bytes
  feeRateBps : Bytes
  side : BitVec 32
  signatureType : BitVec 32
  signature : Bytes

structure WireCreateOrderDataWrite where
  pricePerShare : Bytes
  strategy : Bytes
  slippageBps : Option Bytes
  isFillOrKill : Option Bool
  isPostOnly : Option Bool
  reservedBalancePolicy : Option Bytes
  isMinAmountOut : Option Bool
  selfTradePrevention : Option Bytes
  order : WireContractOrderWrite

structure WireCreateOrderWrite where
  data : WireCreateOrderDataWrite

structure WireCreateReceipt where
  code : Option Bytes
  orderId : Option Bytes
  orderHash : Option Bytes
  removalLockedUntil : Option Bytes

structure WireCreateResponse where
  success : Option Bool
  data : Option WireCreateReceipt

structure TradingJson where
  write : WireCreateOrderWrite → Option Bytes
  read : Bytes → Option WireCreateResponse

def expiration (value : Uint256) : Result (BitVec 64) :=
  if value.toNat ≥ 2 ^ 64 then
    fail .numericOverflow "expiration does not fit the API int64 field" "order.expiration"
  else if value.toNat > 2 ^ 63 - 1 then
    fail .numericOverflow "expiration exceeds the API int64 range" "order.expiration"
  else .ok (BitVec.ofNat 64 value.toNat)

def executionStrategy : ExecutionStrategy → Bytes
  | .market => ascii "MARKET"
  | .limit => ascii "LIMIT"

def selfTradePrevention : SelfTradePrevention → Bytes
  | .cancelMaker => ascii "CANCEL_MAKER"
  | .cancelTaker => ascii "CANCEL_TAKER"
  | .cancelBoth => ascii "CANCEL_BOTH"

def reservedBalancePolicy : ReservedBalancePolicy → Bytes
  | .rejectMarketOrder => ascii "REJECT_MARKET_ORDER"

def wireCreateOrder (request : CreateOrderRequest) (expires : BitVec 64) : WireCreateOrderWrite :=
  ⟨{ pricePerShare := request.pricePerShareWei.text
     strategy := executionStrategy request.strategy
     slippageBps := request.slippageBps.map Uint256.text
     isFillOrKill := request.isFillOrKill
     isPostOnly := request.isPostOnly
     reservedBalancePolicy := request.reservedBalancePolicy.map reservedBalancePolicy
     isMinAmountOut := request.isMinAmountOut
     selfTradePrevention := request.selfTradePrevention.map selfTradePrevention
     order :=
      { hash := request.orderHash
        salt := request.order.salt.text
        maker := request.order.maker.text
        signer := request.order.signer.text
        taker := match request.order.taker with
          | some taker => taker.text
          | none => ascii "0x0000000000000000000000000000000000000000"
        tokenId := request.order.tokenId.text
        makerAmount := request.order.makerAmount.text
        takerAmount := request.order.takerAmount.text
        expiration := expires
        nonce := request.order.nonce.text
        feeRateBps := request.order.feeRateBps.text
        side := if request.order.side = .buy then 0 else 1
        signatureType := match request.order.signatureType with
          | .polyProxy => 1
          | .polyGnosisSafe => 2
          | _ => 0
        signature := request.order.signature } }⟩

namespace TradingJson

variable (json : TradingJson)

def encodeCreateOrderRequest (request : CreateOrderRequest) : Result Bytes := do
  let expires ← expiration request.order.expiration
  match json.write (wireCreateOrder request expires) with
  | none => fail .protocolError "failed to encode Predict.fun request" ""
  | some body => .ok body

def decodeCreateOrderResponse (text : Bytes) (limits : DecodeLimits) : Result CreateOrderReceipt := do
  let wire ← RestReader.parseWire json.read text limits
  if wire.success.getD false = false then
    .error (invalid "Predict.fun returned an unsuccessful response" (ascii "success"))
  else do
    let data ← required wire.data (ascii "data")
    let code ← required data.code (ascii "data.code")
    let orderId ← required data.orderId (ascii "data.orderId")
    let orderHash ← required data.orderHash (ascii "data.orderHash")
    if code.length > limits.maxStringBytes ∨ orderId.length > limits.maxStringBytes ∨
        orderHash.length > limits.maxStringBytes ∨ (data.removalLockedUntil.getD []).length > limits.maxStringBytes then
      .error (invalid "order receipt string exceeds configured limit" (ascii "data"))
    else .ok ⟨code, orderId, orderHash, data.removalLockedUntil⟩

end TradingJson

end Codec

end PredictFun
