import PredictFun.Base.Tasks
import PredictFun.Chain.Transaction
import PredictFun.Trading.Operation

namespace PredictFun.Chain

open Base Codec

structure WireRpcError where
  code : ℤ
  message : Bytes

structure WireStringResponse where
  jsonrpc : Bytes
  id : BitVec 64
  result : Option Bytes
  error : Option WireRpcError

structure WireReceipt where
  transactionHash : Option Bytes
  blockHash : Option Bytes
  blockNumber : Option Bytes
  status : Option Bytes
  gasUsed : Option Bytes
  effectiveGasPrice : Option Bytes

structure WireReceiptResponse where
  jsonrpc : Bytes
  id : BitVec 64
  result : Option WireReceipt
  error : Option WireRpcError

/-- The JSON library: nothing comes back for a text that it cannot read. -/
structure ChainJson where
  readString : Bytes → Option WireStringResponse
  readReceipt : Bytes → Option WireReceiptResponse

def transactionHash (value : Bytes) : Bool :=
  decide (value.length = 66) && decide (value.take 2 = ascii "0x") && (value.drop 2).all isHexDigit

/-- `std::tolower` in the C locale. -/
def lower (c : Byte) : Byte := if 0x41 ≤ c.toNat ∧ c.toNat ≤ 0x5a then c + 0x20 else c

def sameHash (left right : Bytes) : Bool := decide (left.map lower = right.map lower)

def blockTag : BlockTag → Bytes
  | .latest => ascii "latest"
  | .safe => ascii "safe"
  | .finalized => ascii "finalized"
  | .pending => ascii "pending"

def rpcError (value : WireRpcError) : Error :=
  ⟨.remoteError, ascii "JSON-RPC error " ++ integerText value.code ++ ascii ": " ++ value.message, [], 0, 0⟩

def withGasMargin (gas : Uint256) : Result Uint256 := Uint256.parse (decimalText ((gas.toNat * 125 + 99) / 100))

def parseResponse {ω : Type} (read : Bytes → Option ω) (jsonrpc : ω → Bytes) (wireId : ω → BitVec 64)
    (error : ω → Option WireRpcError) (limit : ℕ) (id : BitVec 64) (response : Trading.HttpResponse) : Result ω :=
  if response.status ≠ 200 then
    .error ⟨if response.status ≥ 500 then .httpServerError else .httpClientError,
      ascii "BNB JSON-RPC returned a non-200 status", [], response.status, 0⟩
  else if response.body.length > limit then
    fail .bodyTooLarge "BNB JSON-RPC response exceeds configured limit" ""
  else
    match read response.body with
    | none => fail .malformedJson "BNB JSON-RPC response contains malformed JSON" ""
    | some value =>
      if jsonrpc value ≠ ascii "2.0" ∨ wireId value ≠ id then
        fail .protocolError "BNB JSON-RPC response id/version mismatch" ""
      else
        match error value with
        | some failure => .error (rpcError failure)
        | none => .ok value

theorem parseResponse_ok {ω : Type} {read : Bytes → Option ω} {jsonrpc : ω → Bytes} {wireId : ω → BitVec 64}
    {error : ω → Option WireRpcError} {limit : ℕ} {id : BitVec 64} {response : Trading.HttpResponse} {wire : ω} :
    parseResponse read jsonrpc wireId error limit id response = .ok wire ↔
      response.status = 200 ∧ response.body.length ≤ limit ∧ read response.body = some wire ∧
        jsonrpc wire = ascii "2.0" ∧ wireId wire = id ∧ error wire = none := by
  unfold parseResponse
  by_cases hstatus : response.status ≠ 200
  · rw [if_pos hstatus]
    simp [hstatus]
  by_cases hlong : response.body.length > limit
  · rw [if_neg hstatus, if_pos hlong]
    simp [fail, Nat.not_le.mpr hlong]
  rw [if_neg hstatus, if_neg hlong]
  cases hread : read response.body with
  | none => simp [fail]
  | some value =>
    dsimp only
    by_cases hother : jsonrpc value ≠ ascii "2.0" ∨ wireId value ≠ id
    · rw [if_pos hother]
      simp only [fail, reduceCtorEq, false_iff]
      rintro ⟨_, _, hw, hv, hi, _⟩
      cases hw
      exact hother.elim (fun h => h hv) (fun h => h hi)
    rw [if_neg hother]
    push Not at hstatus hlong hother
    cases he : error value with
    | some failure =>
      simp only [reduceCtorEq, false_iff]
      rintro ⟨_, _, hw, _, _, hn⟩
      cases hw
      simp [he] at hn
    | none =>
      constructor
      · intro h
        cases h
        exact ⟨hstatus, hlong, rfl, hother.1, hother.2, he⟩
      · rintro ⟨_, _, hw, _⟩
        rw [Option.some.inj hw]

def parseString (json : ChainJson) : ℕ → BitVec 64 → Trading.HttpResponse → Result WireStringResponse :=
  parseResponse json.readString WireStringResponse.jsonrpc WireStringResponse.id WireStringResponse.error

def parseReceipt (json : ChainJson) : ℕ → BitVec 64 → Trading.HttpResponse → Result WireReceiptResponse :=
  parseResponse json.readReceipt WireReceiptResponse.jsonrpc WireReceiptResponse.id WireReceiptResponse.error

inductive RpcCall
  | chainId
  | string (method params : Bytes)
  | call (request : CallRequest) (block : BlockTag)
  | receipt (hash : Bytes)
  | sendRaw (bytes : Bytes)
  deriving DecidableEq

namespace RpcCall

def method : RpcCall → Bytes
  | chainId => ascii "eth_chainId"
  | string method _ => method
  | call _ _ => ascii "eth_call"
  | receipt _ => ascii "eth_getTransactionReceipt"
  | sendRaw _ => ascii "eth_sendRawTransaction"

def quote (text : Bytes) : Bytes := [byte '"'] ++ text ++ [byte '"']

def params : RpcCall → Bytes
  | chainId => ascii "[]"
  | string _ params => params
  | call request block =>
    ascii "[\x7b\"to\":" ++ quote request.toAddress.text ++ ascii ",\"data\":" ++ quote request.data ++
      (match request.fromAddress with
        | none => []
        | some sender => ascii ",\"from\":" ++ quote sender.text) ++
      ascii "\x7d," ++ quote (blockTag block) ++ ascii "]"
  | receipt hash => ascii "[" ++ quote hash ++ ascii "]"
  | sendRaw bytes => ascii "[" ++ quote bytes ++ ascii "]"

end RpcCall

structure RpcRequest where
  id : BitVec 64
  call : RpcCall
  deriving DecidableEq

def RpcRequest.body (request : RpcRequest) : Bytes :=
  ascii "\x7b\"jsonrpc\":\"2.0\",\"id\":" ++ decimalText request.id.toNat ++ ascii ",\"method\":" ++
    RpcCall.quote request.call.method ++ ascii ",\"params\":" ++ request.call.params ++ ascii "\x7d"

structure RequestContext where
  -- on the steady clock, in nanoseconds; a default context has none
  deadline : Option ℕ
  deriving DecidableEq

def transportCodes : List ErrorCode :=
  [.cancelled, .invalidArgument, .bodyTooLarge, .deadlineExceeded, .tlsFailure, .dnsFailure, .connectFailure, .writeFailure,
    .bodyTruncated, .readFailure]

structure TransportFailure where
  error : Error
  code : error.code ∈ transportCodes

inductive Query
  | post (request : RpcRequest) (context : RequestContext)
  -- a reading of the steady clock, which does not go back
  | now (after : ℕ)
  -- the timer of the receipt wait; an error is the text of its code
  | wait (wake : ℕ)
  | stopRequested
  | progress (note : ApprovalProgress)

def Answer : Query → Type
  | .post _ _ => Except TransportFailure Trading.HttpResponse
  | .now after => { time : ℕ // after ≤ time }
  | .wait _ => Option Bytes
  | .stopRequested => Bool
  | .progress _ => Unit

structure Shared where
  requestId : BitVec 64 := 1
  validatedChain : Option ChainId := none
  deriving DecidableEq

abbrev Rpc := Program Shared Answer

namespace Rpc

def post (request : RpcRequest) (context : RequestContext) : Rpc (Except TransportFailure Trading.HttpResponse) :=
  .ask (.post request context) .done

def now (after : ℕ) : Rpc { time : ℕ // after ≤ time } := .ask (.now after) .done

def wait (wake : ℕ) : Rpc (Option Bytes) := .ask (.wait wake) .done

def stopRequested : Rpc Bool := .ask .stopRequested .done

def progress (note : ApprovalProgress) : Rpc Unit := .ask (.progress note) .done

def nextId : Rpc (BitVec 64) :=
  .access (fun s => { s with requestId := s.requestId + 1 }) (fun s => .done s.requestId)

def validatedChain : Rpc (Option ChainId) := .access id (fun s => .done s.validatedChain)

def validate (chain : ChainId) : Rpc Unit := .access (fun s => { s with validatedChain := some chain }) (fun _ => .done ())

def andThen {α β : Type} (first : Rpc (Result α)) (next : α → Rpc (Result β)) : Rpc (Result β) :=
  first.bind (fun result =>
    match result with
    | .error error => .done (.error error)
    | .ok value => next value)

variable {α β : Type} {I : Shared → Prop} {allowed : Query → Prop} {known : (query : Query) → Answer query → Prop}

theorem guarded_ask {query : Query} (h : allowed query) :
    (Program.ask query .done : Rpc (Answer query)).Guarded I allowed known (fun a => ¬known query a) := ⟨h, fun _ hn => hn⟩

theorem guarded_andThen {first : Rpc (Result α)} {next : α → Rpc (Result β)} {pre : Result α → Prop} {post : Result β → Prop}
    (h : first.Guarded I allowed known pre) (he : ∀ error, pre (.error error) → post (.error error))
    (hn : ∀ value, pre (.ok value) → (next value).Guarded I allowed known post) :
    (first.andThen next).Guarded I allowed known post := by
  refine Program.Guarded.bind h (fun result hr => ?_)
  cases result with
  | error error => exact he error hr
  | ok value => exact hn value hr

end Rpc

end PredictFun.Chain
