import PredictFun.Types.Chain

namespace PredictFun

structure AuthProof where
  signer : EvmAddress
  signature : Bytes
  message : Bytes
  deriving DecidableEq

namespace Codec

structure AuthCodecLimits where
  maxBodyBytes : ℕ := 64 * 1024
  maxMessageBytes : ℕ := 16 * 1024
  maxSignatureBytes : ℕ := 2 * 1024
  maxTokenBytes : ℕ := 32 * 1024

structure WireAuthResponse where
  success : Option Bool
  data : Option (Option Bytes)

structure WireAuthProof where
  signer : Bytes
  signature : Bytes
  message : Bytes

/-- What the JSON library makes of the texts; `none` where it reports an error. -/
structure AuthJson where
  readMessage : Bytes → Option WireAuthResponse
  readToken : Bytes → Option WireAuthResponse
  write : WireAuthProof → Option Bytes

namespace Auth

def missing {α : Type} (field : String) : Result α :=
  fail .missingField "authentication response is missing a required field" field

def decode (read : Bytes → Option WireAuthResponse) (member : String) (bound : ℕ) (rejected invalid : String)
    (json : Bytes) (limits : AuthCodecLimits) : Result Bytes :=
  if json.length > limits.maxBodyBytes then
    fail .bodyTooLarge "authentication response exceeds configured limit" ""
  else
    match read json with
    | none => fail .malformedJson "authentication response is malformed JSON" ""
    | some wire =>
      match wire.success with
      | none => missing "success"
      | some false => fail .venueRejected rejected ""
      | some true =>
        match wire.data with
        | none => missing "data"
        | some none => missing member
        | some (some text) =>
          if text = [] ∨ text.length > bound then fail .invalidField invalid member else .ok text

end Auth

variable (json : AuthJson)

def decodeAuthMessageResponse (body : Bytes) (limits : AuthCodecLimits) : Result Bytes :=
  Auth.decode json.readMessage "data.message" limits.maxMessageBytes "Predict.fun rejected the authentication request"
    "authentication message has an invalid length" body limits

def decodeAuthTokenResponse (body : Bytes) (limits : AuthCodecLimits) : Result Bytes :=
  Auth.decode json.readToken "data.token" limits.maxTokenBytes "Predict.fun rejected the authentication proof"
    "authentication token has an invalid length" body limits

def encodeAuthProof (proof : AuthProof) (limits : AuthCodecLimits) : Result Bytes :=
  if proof.signer.empty then fail .invalidArgument "signer address is required" "signer"
  else if proof.signature = [] ∨ proof.signature.length > limits.maxSignatureBytes then
    fail .invalidArgument "signature has an invalid length" "signature"
  else if proof.message = [] ∨ proof.message.length > limits.maxMessageBytes then
    fail .invalidArgument "authentication message has an invalid length" "message"
  else
    match json.write ⟨proof.signer.text, proof.signature, proof.message⟩ with
    | none => fail .protocolError "authentication proof JSON encoding failed" ""
    | some encoded =>
      if encoded.length > limits.maxBodyBytes then
        fail .bodyTooLarge "authentication proof exceeds configured limit" ""
      else .ok encoded

end Codec

end PredictFun
