import PredictFun.Codec.Integers
import PredictFun.Types.Chain

namespace PredictFun.Chain

open Base Codec

def decodeHex (hex : Bytes) : Result Bytes :=
  if hex.take 2 ≠ ascii "0x" ∨ hex.length % 2 ≠ 0 then
    fail .invalidField "hex bytes must use an even-length 0x prefix" "hex"
  else
    match hexBytes (hex.drop 2) with
    | none => fail .invalidField "hex contains a non-hex digit" "hex"
    | some bytes => .ok bytes

def encodeHex (bytes : Bytes) : Bytes := ascii "0x" ++ hexText bytes

def quantityValue (digits : Bytes) : Option ℕ :=
  digits.foldlM (fun value digit => (hexValue digit).map (fun part => value * 16 + part)) 0

def decodeQuantity (hex : Bytes) : Result Uint256 :=
  if hex.take 2 ≠ ascii "0x" ∨ hex.length < 3 then fail .invalidField "RPC quantity must be 0x-prefixed" "result"
  else if hex.length > 3 ∧ hex[2]? = some (byte '0') then fail .invalidField "RPC quantity has a leading zero" "result"
  else
    match quantityValue (hex.drop 2) with
    | none => fail .invalidField "RPC quantity contains a non-hex digit" "result"
    | some value =>
      if value ≥ 2 ^ 256 then fail .numericOverflow "RPC quantity exceeds uint256" "result"
      else Uint256.parse (decimalText value)

theorem decodeQuantity_ok {hex : Bytes} {value : Uint256} (h : decodeQuantity hex = .ok value) :
    quantityValue (hex.drop 2) = some value.toNat := by
  unfold decodeQuantity at h
  split_ifs at h
  · cases h
  · cases h
  · cases hv : quantityValue (hex.drop 2) with
    | none =>
      rw [hv] at h
      cases h
    | some number =>
      rw [hv] at h
      dsimp only at h
      split_ifs at h
      · cases h
      · rw [Uint256.toNat_of_parse h]

def uintFromBytes (bytes : Bytes) : Result Uint256 :=
  Uint256.parse (decimalText (bytes.foldl (fun value b => value * 256 + b.toNat) 0))

def decodeWordUint256 (hex : Bytes) : Result Uint256 := do
  let bytes ← decodeHex hex
  if bytes.length ≠ 32 then fail .invalidField "ABI uint256 result must contain one word" "result"
  else uintFromBytes bytes

def decodeWordBool (hex : Bytes) : Result Bool := do
  let value ← decodeWordUint256 hex
  if value.text = ascii "0" then .ok false
  else if value.text = ascii "1" then .ok true
  else fail .invalidField "ABI bool is not 0 or 1" "result"

def baseDigits (base value : ℕ) : List ℕ := (Nat.digits base value).reverse

def encodeQuantity (value : Uint256) : Result Bytes :=
  if value.toNat = 0 then .ok (ascii "0x0")
  else .ok (ascii "0x" ++ (baseDigits 16 value.toNat).map hexDigit)

def wordOf (value : ℕ) : Bytes32 where
  bytes := (List.range 32).map (fun index => BitVec.ofNat 8 (value / 256 ^ (31 - index)))
  size := by simp

def word (value : Uint256) : Result Bytes32 :=
  if value.toNat / 256 ^ 32 ≠ 0 then fail .numericOverflow "uint256 exceeds ABI word" "value"
  else .ok (wordOf value.toNat)

def addressWord (value : EvmAddress) : Bytes32 where
  bytes := List.replicate 12 0 ++ value.bytes
  size := by simp [value.size]

def boolWord (value : Bool) : Bytes32 := wordOf value.toNat

-- the hash function of the host
variable (keccak : Bytes → Result Hash32)

def encodeCall (signature : String) (words : List Bytes32) : Result Bytes := do
  let hash ← keccak (ascii signature)
  return encodeHex (hash.bytes.take 4 ++ words.flatMap Bytes32.bytes)

def sizeWord (size : ℕ) : Result Bytes32 :=
  match Uint256.parse (decimalText size) >>= word with
  | .error _ => fail .numericOverflow "dynamic ABI offset/length exceeds uint256" ""
  | .ok result => .ok result

def encodeCallWithBytes (signature : String) (wordsBefore : List Bytes32) (value : Bytes) : Result Bytes := do
  let hash ← keccak (ascii signature)
  let offset ← sizeWord ((wordsBefore.length + 1) * 32)
  let length ← sizeWord value.length
  let padded := (value.length + 31) / 32 * 32
  return encodeHex (hash.bytes.take 4 ++ wordsBefore.flatMap Bytes32.bytes ++ offset.bytes ++ length.bytes ++ value ++
    List.replicate (padded - value.length) 0)

def encodeCallWithUintArray (signature : String) (wordsBefore : List Bytes32) (values : List Uint256)
    (wordsAfter : List Bytes32) : Result Bytes := do
  let hash ← keccak (ascii signature)
  let offset ← sizeWord ((wordsBefore.length + 1 + wordsAfter.length) * 32)
  let length ← sizeWord values.length
  let words ← values.mapM word
  return encodeHex (hash.bytes.take 4 ++ wordsBefore.flatMap Bytes32.bytes ++ offset.bytes ++
    wordsAfter.flatMap Bytes32.bytes ++ length.bytes ++ words.flatMap Bytes32.bytes)

def erc20BalanceOf (owner : EvmAddress) : Result Bytes := encodeCall keccak "balanceOf(address)" [addressWord owner]

def erc20Decimals : Result Bytes := encodeCall keccak "decimals()" []

def erc20Allowance (owner spender : EvmAddress) : Result Bytes :=
  encodeCall keccak "allowance(address,address)" [addressWord owner, addressWord spender]

def erc20Approve (spender : EvmAddress) (amount : Uint256) : Result Bytes := do
  let encodedAmount ← word amount
  encodeCall keccak "approve(address,uint256)" [addressWord spender, encodedAmount]

def erc1155BalanceOf (owner : EvmAddress) (tokenId : Uint256) : Result Bytes := do
  let encodedToken ← word tokenId
  encodeCall keccak "balanceOf(address,uint256)" [addressWord owner, encodedToken]

def erc1155IsApprovedForAll (owner operatorAddress : EvmAddress) : Result Bytes :=
  encodeCall keccak "isApprovedForAll(address,address)" [addressWord owner, addressWord operatorAddress]

def erc1155SetApprovalForAll (operatorAddress : EvmAddress) (approved : Bool) : Result Bytes :=
  encodeCall keccak "setApprovalForAll(address,bool)" [addressWord operatorAddress, boolWord approved]

end PredictFun.Chain
