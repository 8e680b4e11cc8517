import PredictFun.Chain.Abi

namespace PredictFun

def ContractSide.number : ContractSide → ℕ
  | .buy => 0
  | .sell => 1
  | .unknown => 255

def SignatureType.number : SignatureType → ℕ
  | .eoa => 0
  | .polyProxy => 1
  | .polyGnosisSafe => 2
  | .unknown => 255

namespace Chain

open Codec

def uintWord (value : ℕ) : Result Bytes32 := Uint256.parse (decimalText value) >>= word

def zeroWord : Bytes32 := wordOf 0

def orderWords (order : SignedOrder) : Result (List Bytes32) := do
  let salt ← word order.salt
  let token ← word order.tokenId
  let makerAmount ← word order.makerAmount
  let takerAmount ← word order.takerAmount
  let expiration ← word order.expiration
  let nonce ← word order.nonce
  let fee ← word order.feeRateBps
  let side ← uintWord order.side.number
  let signatureType ← uintWord order.signatureType.number
  return [salt, addressWord order.maker, addressWord order.signer, (order.taker.map addressWord).getD zeroWord, token,
    makerAmount, takerAmount, expiration, nonce, fee, side, signatureType]

def encodeOrderTuple (order : SignedOrder) : Result Bytes :=
  match orderWords order with
  | .error _ => fail .numericOverflow "cancel order contains a value outside its ABI type" ""
  | .ok words =>
    match decodeHex order.signature with
    | .error _ | .ok [] =>
      fail .invalidField "cancel order requires a non-empty hex signature" "orders[].signature"
    | .ok signature =>
      match uintWord (13 * 32), uintWord signature.length with
      | .ok offset, .ok length =>
        let padded := (signature.length + 31) / 32 * 32
        .ok (words.flatMap Bytes32.bytes ++ offset.bytes ++ length.bytes ++ signature ++
          List.replicate (padded - signature.length) 0)
      | _, _ => fail .numericOverflow "cancel order signature length exceeds ABI limits" ""

def tupleOffsets : ℕ → List Bytes → Result (List Bytes32)
  | _, [] => .ok []
  | offset, tuple :: tuples => do
    let here ← uintWord offset
    let rest ← tupleOffsets (offset + tuple.length) tuples
    return here :: rest

def cancelOrdersSignature : String :=
  "cancelOrders((uint256,address,address,address,uint256,uint256,uint256,uint256,uint256,uint256,uint8,uint8,bytes)[])"

def encodeCancelOrders (keccak : Bytes → Result Hash32) (orders : List SignedOrder) : Result Bytes :=
  match keccak (ascii cancelOrdersSignature), uintWord 32, uintWord orders.length with
  | .ok selector, .ok rootOffset, .ok count => do
    let tuples ← orders.mapM encodeOrderTuple
    let offsets ← tupleOffsets (orders.length * 32) tuples
    return encodeHex (selector.bytes.take 4 ++ rootOffset.bytes ++ count.bytes ++ offsets.flatMap Bytes32.bytes ++
      tuples.flatten)
  | _, _, _ => fail .numericOverflow "cancel order array exceeds ABI limits" ""

end Chain

end PredictFun
