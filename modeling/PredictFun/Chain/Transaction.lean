import PredictFun.Chain.Abi

namespace PredictFun.Chain

def integerBytes (value : ℕ) : Bytes := (baseDigits 256 value).map (BitVec.ofNat 8)

def rlpBytes (value : Bytes) : Bytes :=
  if value.length = 1 ∧ (value.headD 0).toNat < 0x80 then value
  else if value.length ≤ 55 then BitVec.ofNat 8 (0x80 + value.length) :: value
  else BitVec.ofNat 8 (0xb7 + (integerBytes value.length).length) :: (integerBytes value.length ++ value)

def rlpInteger (value : ℕ) : Bytes := rlpBytes (integerBytes value)

def rlpList (fields : List Bytes) : Bytes :=
  let size := fields.flatten.length
  if size ≤ 55 then BitVec.ofNat 8 (0xc0 + size) :: fields.flatten
  else BitVec.ofNat 8 (0xf7 + (integerBytes size).length) :: (integerBytes size ++ fields.flatten)

def transactionData (value : Bytes) : Result Bytes :=
  match decodeHex value with
  | .error error => .error { error with field := ascii "transaction.data" }
  | .ok bytes => .ok bytes

def baseFields (transaction : PopulatedTransaction) : Result (List Bytes) := do
  let data ← transactionData transaction.data
  return [rlpInteger transaction.nonce.toNat, rlpInteger transaction.gasPrice.toNat, rlpInteger transaction.gasLimit.toNat,
    rlpBytes transaction.toAddress.bytes, rlpInteger transaction.value.toNat, rlpBytes data]

def signatureBytes (value : Bytes) : Result Bytes :=
  match decodeHex value with
  | .error _ => fail .invalidField "transaction signature must contain 65 bytes" "signature"
  | .ok decoded =>
    if decoded.length ≠ 65 then fail .invalidField "transaction signature must contain 65 bytes" "signature"
    else if decoded.getLast? ≠ some 27 ∧ decoded.getLast? ≠ some 28 then
      fail .invalidField "transaction signature recovery id must be 27 or 28" "signature"
    else .ok decoded

def trimWord (signature : Bytes) (offset : ℕ) : Bytes := ((signature.drop offset).take 32).dropWhile (fun value => value = 0)

/-- An external signer: it gives the text of a signature or an error, or it throws. -/
abbrev DigestSigner := Hash32 → Option (Result Bytes)

variable (keccak : Bytes → Result Hash32)

def legacyTransactionSigningDigest (transaction : PopulatedTransaction) : Result Hash32 := do
  let fields ← baseFields transaction
  keccak (rlpList (fields ++ [rlpInteger transaction.chainId.value, rlpBytes [], rlpBytes []]))

/-- The transaction with its signature; the last byte of the signature is 27 or 28. -/
def signedEncoding (transaction : PopulatedTransaction) (fields : List Bytes) (signature : Bytes) : Bytes :=
  let recovery := (signature.getLast?.getD 27).toNat - 27
  rlpList (fields ++ [rlpInteger (recovery + 35 + transaction.chainId.value * 2), rlpBytes (trimWord signature 0),
    rlpBytes (trimWord signature 32)])

def sealTransaction (transaction : PopulatedTransaction) (signedDigest : Result Bytes) : Result RawTransaction := do
  let signature ← signedDigest >>= signatureBytes
  let fields ← baseFields transaction
  let hash ← keccak (signedEncoding transaction fields signature)
  return ⟨encodeHex (signedEncoding transaction fields signature), encodeHex hash.bytes⟩

/-- Nothing comes back when the signer throws. -/
def signLegacyTransaction (transaction : PopulatedTransaction) : Option DigestSigner → Option (Result RawTransaction)
  | none => some (fail .invalidArgument "transaction digest signer is required" "signer")
  | some signer =>
    match legacyTransactionSigningDigest keccak transaction with
    | .error error => some (.error error)
    | .ok digest => (signer digest).map (sealTransaction keccak transaction)

def rawTransactionHash (rawTransaction : Bytes) : Result Bytes :=
  match decodeHex rawTransaction with
  | .error _ | .ok [] => fail .invalidField "raw transaction must be non-empty 0x-prefixed bytes" "raw_transaction"
  | .ok bytes => (keccak bytes).map (fun hash => encodeHex hash.bytes)

end PredictFun.Chain
