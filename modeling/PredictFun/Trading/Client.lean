import PredictFun.Codec.Trading
import PredictFun.Trading.Operation

namespace PredictFun.Trading

def hash32 (value : Bytes) : Bool :=
  decide (value.length = 66) && decide (value.take 2 = ascii "0x") && (value.drop 2).all isHexDigit

def validateCreateOrder (request : CreateOrderRequest) : Result Bytes :=
  if hash32 request.orderHash = false then
    fail .invalidArgument "order hash must be 0x followed by 64 hex characters" "order_hash"
  else if request.order.signature = [] ∨ request.order.signature.length > 200 then
    fail .invalidArgument "signature must contain at most 200 characters" "order.signature"
  else if request.order.side ≠ .buy ∧ request.order.side ≠ .sell then
    fail .invalidArgument "unsupported order side" "order.side"
  else if request.order.signatureType ≠ .eoa ∧ request.order.signatureType ≠ .polyProxy ∧
      request.order.signatureType ≠ .polyGnosisSafe then
    fail .invalidArgument "unsupported signature type" "order.signature_type"
  else if request.pricePerShareWei.isZero then
    fail .invalidPrice "price per share must be positive" "price_per_share_wei"
  else if request.order.makerAmount.isZero ∨ request.order.takerAmount.isZero then
    fail .invalidQuantity "maker and taker amounts must be positive" "order"
  else if request.strategy = .market ∧ request.isPostOnly.getD false then
    fail .invalidArgument "market orders cannot be post-only" "is_post_only"
  else .ok request.orderHash

structure Client where
  environment : Environment
  json : Codec.TradingJson
  decodeLimits : Codec.DecodeLimits
  retryAfter : HttpResponse → ℕ

def Client.decode (client : Client) (body : Bytes) : Result CreateOrderReceipt :=
  client.json.decodeCreateOrderResponse body client.decodeLimits

/-- The mutation of a create request; without a key or a body there is none. -/
def Client.createOrder (client : Client) (request : CreateOrderRequest) (deadline : Option ℕ) :
    Result (Mutation CreateOrderReceipt) := do
  let key ← validateCreateOrder request
  let body ← client.json.encodeCreateOrderRequest request
  return ⟨client.environment, ascii "/v1/orders", body, key, deadline, client.decode, client.retryAfter⟩

end PredictFun.Trading
