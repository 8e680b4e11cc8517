import PredictFun.Chain.Rpc

namespace PredictFun.Chain

open Base Codec

structure ClientOptions where
  expectedChainId : ChainId := .bnbTestnet
  endpoint : RpcEndpoint := defaultRpcEndpoint .bnbTestnet
  maxResponseBytes : ℕ := 2 * 1024 * 1024
  deriving DecidableEq

structure ChainClient where
  options : ClientOptions
  json : ChainJson
  keccak : Bytes → Result Hash32

namespace ChainClient

variable (client : ChainClient)

abbrev Response := Except TransportFailure Trading.HttpResponse

def received (response : Response) : Result Trading.HttpResponse := response.mapError TransportFailure.error

def stringAnswer (missing : String) (id : BitVec 64) (response : Response) : Result Bytes := do
  let response ← received response
  let wire ← parseString client.json client.options.maxResponseBytes id response
  match wire.result with
  | none => fail .missingField missing "result"
  | some result => return result

def chainIdAnswer (id : BitVec 64) (response : Response) : Result ChainId := do
  let result ← client.stringAnswer "eth_chainId result is missing" id response
  let value ← decodeQuantity result
  if value.text = ascii "56" then return .bnbMainnet
  else if value.text = ascii "97" then return .bnbTestnet
  else fail .unsupportedChain "RPC is not a supported BNB chain" "chain_id"

def rawChainId (context : RequestContext) : Rpc (Result ChainId) := do
  let id ← Rpc.nextId
  let response ← Rpc.post ⟨id, .chainId⟩ context
  return client.chainIdAnswer id response

def ensureChain (context : RequestContext) : Rpc (Result ChainId) := do
  match ← Rpc.validatedChain with
  | some chain => return .ok chain
  | none =>
    (client.rawChainId context).andThen (fun chain => do
      if chain ≠ client.options.expectedChainId then
        return fail .unsupportedChain "RPC chain id does not match the configured Predict environment" "chain_id"
      else
        Rpc.validate chain
        return .ok chain)

def checkedRequest {α : Type} (call : RpcCall) (context : RequestContext) (answer : BitVec 64 → Response → Result α) :
    Rpc (Result α) :=
  (client.ensureChain context).andThen (fun _ => do
    let id ← Rpc.nextId
    let response ← Rpc.post ⟨id, call⟩ context
    return answer id response)

def stringMethod (method : String) (params : Bytes) (context : RequestContext) : Rpc (Result Bytes) :=
  client.checkedRequest (.string (ascii method) params) context (client.stringAnswer "JSON-RPC string result is missing")

def call (request : CallRequest) (block : BlockTag) (context : RequestContext) : Rpc (Result Bytes) :=
  client.checkedRequest (.call request block) context (client.stringAnswer "eth_call result is missing")

def optionalQuantity : Option Bytes → Result (Option Uint256)
  | none => .ok none
  | some source => (decodeQuantity source).map some

def receiptAnswer (expected : Bytes) (id : BitVec 64) (response : Response) : Result (Option TransactionReceipt) := do
  let response ← received response
  let wire ← parseReceipt client.json client.options.maxResponseBytes id response
  match wire.result with
  | none => return none
  | some value =>
    match value.transactionHash with
    | none => fail .missingField "receipt transaction hash is missing" "result.transactionHash"
    | some hash =>
      if transactionHash hash = false ∨ sameHash hash expected = false then
        fail .protocolError "receipt transaction hash mismatch" "result.transactionHash"
      else do
        let blockNumber ← optionalQuantity value.blockNumber
        let status ← optionalQuantity value.status
        let gasUsed ← optionalQuantity value.gasUsed
        let effectiveGasPrice ← optionalQuantity value.effectiveGasPrice
        return some ⟨hash, value.blockHash, blockNumber, status, gasUsed, effectiveGasPrice⟩

def receipt (hash : Bytes) (context : RequestContext) : Rpc (Result (Option TransactionReceipt)) :=
  if transactionHash hash = false then
    .done (fail .invalidArgument "transaction hash must be 0x plus 64 hex digits" "transaction_hash")
  else client.checkedRequest (.receipt hash) context (client.receiptAnswer hash)

def countParams (address : EvmAddress) (block : BlockTag) : Bytes :=
  ascii "[" ++ RpcCall.quote address.text ++ ascii "," ++ RpcCall.quote (blockTag block) ++ ascii "]"

def estimateParams (sender : EvmAddress) (transaction : UnsignedTransaction) (value : Bytes) : Bytes :=
  ascii "[\x7b\"from\":" ++ RpcCall.quote sender.text ++ ascii ",\"to\":" ++ RpcCall.quote transaction.toAddress.text ++
    ascii ",\"data\":" ++ RpcCall.quote transaction.data ++ ascii ",\"value\":" ++ RpcCall.quote value ++ ascii "\x7d]"

def quantityMethod (method : String) (params : Bytes) (context : RequestContext) : Rpc (Result Uint256) :=
  (client.stringMethod method params context).andThen (fun result => return decodeQuantity result)

def populate (sender : EvmAddress) (transaction : UnsignedTransaction) (context : RequestContext) :
    Rpc (Result PopulatedTransaction) :=
  (client.quantityMethod "eth_getTransactionCount" (countParams sender .pending) context).andThen (fun nonce =>
    (client.quantityMethod "eth_gasPrice" (ascii "[]") context).andThen (fun gasPrice =>
      match encodeQuantity transaction.value with
      | .error error => return .error error
      | .ok value =>
        (client.quantityMethod "eth_estimateGas" (estimateParams sender transaction value) context).andThen (fun gas =>
          return (withGasMargin gas).map (fun limit =>
            ⟨client.options.expectedChainId, sender, transaction.toAddress, nonce, gasPrice, limit, transaction.value,
              transaction.data⟩))))

def sendAnswer (expected : Bytes) (id : BitVec 64) : Response → Result TransactionSubmission
  | .error failure => .ok ⟨.ambiguous, expected, some failure.error⟩
  | .ok response => do
    let wire ← parseString client.json client.options.maxResponseBytes id response
    if wire.result.any (fun result => transactionHash result && sameHash result expected) then
      return ⟨.accepted, expected, none⟩
    else fail .protocolError "eth_sendRawTransaction returned an unexpected hash" "result"

def sendRaw (transaction : RawTransaction) (context : RequestContext) : Rpc (Result TransactionSubmission) :=
  match rawTransactionHash client.keccak transaction.bytes with
  | .error error => return .error error
  | .ok calculated =>
    if transactionHash transaction.transactionHash = false ∨ sameHash transaction.transactionHash calculated = false then
      return fail .invalidArgument "raw transaction hash does not match its bytes" "transaction_hash"
    else
      client.checkedRequest (.sendRaw transaction.bytes) context (client.sendAnswer transaction.transactionHash)

def receiptResult (receipt : TransactionReceipt) : Result TransactionReceipt :=
  if receipt.status = none then fail .missingField "confirmed receipt status is missing" "receipt.status"
  else if receipt.confirmedRevert then fail .executionReverted "transaction execution reverted" "receipt.status"
  else .ok receipt

/-- The receipt wait from a time on; its timer has not fired before. -/
def poll (hash : Bytes) (context : RequestContext) (deadline interval earliest : ℕ) (positive : 0 < interval) :
    Rpc (Result TransactionReceipt) := do
  if ← Rpc.stopRequested then
    return fail .cancelled "receipt wait cancelled" ""
  else
    let time ← Rpc.now earliest
    if time.val ≥ deadline then
      return fail .deadlineExceeded "receipt wait deadline exceeded" ""
    else
      (client.receipt hash context).andThen (fun found =>
        match found with
        | some receipt => return receiptResult receipt
        | none => do
          let later ← Rpc.now time.val
          if later.val + interval ≥ deadline then
            return fail .deadlineExceeded "receipt wait deadline exceeded" ""
          else
            match ← Rpc.wait (later.val + interval) with
            | some message => return .error ⟨.cancelled, ascii "receipt wait timer cancelled: " ++ message, [], 0, 0⟩
            | none => poll hash context deadline interval (later.val + interval) positive)
termination_by deadline - earliest
decreasing_by
  have := time.property
  have := later.property
  omega

def nanoseconds (milliseconds : ℤ) : ℕ := milliseconds.toNat * 1000000

def defaultReceiptWait : ℕ := nanoseconds 120000

theorem nanoseconds_pos {milliseconds : ℤ} (h : ¬milliseconds ≤ 0) : 0 < nanoseconds milliseconds := by
  unfold nanoseconds
  omega

def waitReceipt (hash : Bytes) (options : ReceiptWaitOptions) (context : RequestContext) : Rpc (Result TransactionReceipt) :=
  if h : options.pollInterval ≤ 0 then
    return fail .invalidArgument "receipt poll interval must be positive" "poll_interval"
  else
    match context.deadline with
    | some deadline => client.poll hash context deadline (nanoseconds options.pollInterval) 0 (nanoseconds_pos h)
    | none => do
      let time ← Rpc.now 0
      client.poll hash ⟨some (time.val + defaultReceiptWait)⟩ (time.val + defaultReceiptWait)
        (nanoseconds options.pollInterval) time.val (nanoseconds_pos h)

def executionOf (transaction : PopulatedTransaction) (raw : RawTransaction) (submission : TransactionSubmission) :
    Result TransactionReceipt → TransactionExecution
  | .error error =>
    ⟨if error.code = .executionReverted then .reverted else .outcomeUnknown, transaction, raw, submission, none, some error⟩
  | .ok receipt => ⟨.confirmed, transaction, raw, submission, some receipt, none⟩

/-- The part of `execute` after the transaction is populated. -/
def submitSigned (transaction : PopulatedTransaction) (signer : Option DigestSigner) (waitOptions : ReceiptWaitOptions)
    (context : RequestContext) : Rpc (Result TransactionExecution) :=
  match signLegacyTransaction client.keccak transaction signer with
  | none => return fail .invalidArgument "transaction signer threw an exception" "signer"
  | some (.error error) => return .error error
  | some (.ok raw) =>
    (client.sendRaw raw context).andThen (fun submission => do
      let receipt ← client.waitReceipt raw.transactionHash waitOptions context
      return .ok (executionOf transaction raw submission receipt))

def execute (sender : EvmAddress) (transaction : UnsignedTransaction) (signer : Option DigestSigner)
    (waitOptions : ReceiptWaitOptions) (context : RequestContext) : Rpc (Result TransactionExecution) :=
  if signer.isNone then
    return fail .invalidArgument "transaction digest signer is required" "signer"
  else
    (client.populate sender transaction context).andThen (fun populated =>
      client.submitSigned populated signer waitOptions context)

def read {α : Type} (token : EvmAddress) (data : Result Bytes) (decode : Bytes → Result α) (context : RequestContext) :
    Rpc (Result α) :=
  match data with
  | .error error => return .error error
  | .ok data => (client.call ⟨token, data, none⟩ .latest context).andThen (fun value => return decode value)

def nativeBalance (owner : EvmAddress) (block : BlockTag) (context : RequestContext) : Rpc (Result Uint256) :=
  client.quantityMethod "eth_getBalance" (countParams owner block) context

def transactionCount (address : EvmAddress) (block : BlockTag) (context : RequestContext) : Rpc (Result Uint256) :=
  client.quantityMethod "eth_getTransactionCount" (countParams address block) context

def gasPrice (context : RequestContext) : Rpc (Result Uint256) := client.quantityMethod "eth_gasPrice" (ascii "[]") context

def estimateGas (sender : EvmAddress) (transaction : UnsignedTransaction) (context : RequestContext) : Rpc (Result Uint256) :=
  match encodeQuantity transaction.value with
  | .error error => return .error error
  | .ok value => client.quantityMethod "eth_estimateGas" (estimateParams sender transaction value) context

def erc20Balance (token owner : EvmAddress) (context : RequestContext) : Rpc (Result Uint256) :=
  client.read token (erc20BalanceOf client.keccak owner) decodeWordUint256 context

def smallNumber (value : Bytes) : Result Byte := do
  let decoded ← decodeWordUint256 value
  if decoded.text.length > 3 ∨ decoded.toNat > 255 then
    .error ⟨.numericOverflow, ascii "ERC-20 decimals exceeds uint8", decoded.text, 0, 0⟩
  else return BitVec.ofNat 8 decoded.toNat

def erc20TokenDecimals (token : EvmAddress) (context : RequestContext) : Rpc (Result Byte) :=
  client.read token (erc20Decimals client.keccak) smallNumber context

def erc20TokenAllowance (token owner spender : EvmAddress) (context : RequestContext) : Rpc (Result Uint256) :=
  client.read token (erc20Allowance client.keccak owner spender) decodeWordUint256 context

def erc1155Balance (token owner : EvmAddress) (tokenId : Uint256) (context : RequestContext) : Rpc (Result Uint256) :=
  client.read token (erc1155BalanceOf client.keccak owner tokenId) decodeWordUint256 context

def erc1155Approved (token owner operatorAddress : EvmAddress) (context : RequestContext) : Rpc (Result Bool) :=
  client.read token (erc1155IsApprovedForAll client.keccak owner operatorAddress) decodeWordBool context

structure WaitEnds (found : Result (Option TransactionReceipt) → Prop) (post : Result TransactionReceipt → Prop) : Prop where
  failed : ∀ error, found (.error error) → post (.error error)
  given : ∀ receipt, found (.ok (some receipt)) → post (receiptResult receipt)
  own : ∀ error, error.code ∈ [.cancelled, .deadlineExceeded, .invalidArgument] → post (.error error)

variable {client} {I : Shared → Prop} {allowed : Query → Prop} {known : (query : Query) → Answer query → Prop}
  {found : Result (Option TransactionReceipt) → Prop} {post : Result TransactionReceipt → Prop} {hash : Bytes}

theorem guarded_poll (h : WaitEnds found post) (hstop : allowed .stopRequested) (hnow : ∀ after, allowed (.now after))
    (hwait : ∀ wake, allowed (.wait wake)) {context : RequestContext}
    (hreceipt : (client.receipt hash context).Guarded I allowed known found) (deadline interval earliest : ℕ)
    (positive : 0 < interval) :
    (client.poll hash context deadline interval earliest positive).Guarded I allowed known post := by
  -- the timer wakes the wait up at a later time, below the deadline
  induction hn : deadline - earliest using Nat.strong_induction_on generalizing earliest with
  | _ n ih =>
    rw [poll]
    refine Program.Guarded.bind (Rpc.guarded_ask hstop) (fun stop _ => ?_)
    split_ifs
    · exact h.own _ (by simp)
    refine Program.Guarded.bind (Rpc.guarded_ask (hnow earliest)) (fun time _ => ?_)
    split_ifs with hlate
    · exact h.own _ (by simp)
    refine Rpc.guarded_andThen hreceipt h.failed (fun receipt hr => ?_)
    cases receipt with
    | some receipt => exact h.given receipt hr
    | none =>
      refine Program.Guarded.bind (Rpc.guarded_ask (hnow time.val)) (fun later _ => ?_)
      split_ifs with hdeadline
      · exact h.own _ (by simp)
      refine Program.Guarded.bind (Rpc.guarded_ask (hwait _)) (fun fired _ => ?_)
      cases fired with
      | some message => exact h.own _ (by simp)
      | none =>
        have h₁ : earliest ≤ time.val := time.property
        have h₂ : time.val ≤ later.val := later.property
        exact ih (deadline - (later.val + interval)) (by omega) _ rfl

theorem guarded_waitReceipt (h : WaitEnds found post) (hstop : allowed .stopRequested) (hnow : ∀ after, allowed (.now after))
    (hwait : ∀ wake, allowed (.wait wake)) (hreceipt : ∀ context, (client.receipt hash context).Guarded I allowed known found)
    (options : ReceiptWaitOptions) (context : RequestContext) :
    (client.waitReceipt hash options context).Guarded I allowed known post := by
  unfold waitReceipt
  split_ifs
  · exact h.own _ (by simp)
  · split
    · exact guarded_poll h hstop hnow hwait (hreceipt _) _ _ _ _
    · exact Program.Guarded.bind (Rpc.guarded_ask (hnow 0))
        (fun time _ => guarded_poll h hstop hnow hwait (hreceipt _) _ _ _ _)

end ChainClient

end PredictFun.Chain
