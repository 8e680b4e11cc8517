import PredictFun.Chain.Client

namespace PredictFun.Chain

open Base

section

variable (keccak : Bytes → Result Hash32)

def uint256Maximum : Uint256 := ⟨Uint256.uint256Max, by decide, by decide, by decide⟩

def approvalTransaction (step : ApprovalStep) (amount : Option Uint256) (approved : Bool) : Result UnsignedTransaction := do
  let data ← match step.kind with
    | .erc1155Operator => erc1155SetApprovalForAll keccak step.spender approved
    | .erc20Allowance => erc20Approve keccak step.spender (if approved then amount.getD uint256Maximum else Uint256.zero)
  return ⟨step.token, data, Uint256.zero⟩

def routeTransaction (transaction : UnsignedTransaction) (route : RouteOptions) : Result UnsignedTransaction :=
  match route.route with
  | .eoa => .ok transaction
  | .predictAccount =>
    match route.predictAccount with
    | none => fail .invalidArgument "Predict Account routing requires its account address" "predict_account"
    | some account =>
      if account.empty then
        fail .invalidArgument "Predict Account routing requires its account address" "predict_account"
      else do
        let inner ← decodeHex transaction.data
        let value ← word transaction.value
        let data ← encodeCallWithBytes keccak "execute(bytes32,bytes)" [wordOf 0]
          (transaction.toAddress.bytes ++ value.bytes ++ inner)
        return ⟨account, data, Uint256.zero⟩

end

def sufficientExchangeAllowance (allowance : Uint256) : Bool := decide (2 ^ 255 - 1 ≤ allowance.toNat)

namespace ChainClient

variable (client : ChainClient)

def approvalData (owner : EvmAddress) (step : ApprovalStep) : Result Bytes :=
  match step.kind with
  | .erc20Allowance => erc20Allowance client.keccak owner step.spender
  | .erc1155Operator => erc1155IsApprovedForAll client.keccak owner step.spender

def approvalCheck (step : ApprovalStep) (value : Bytes) : Result ApprovalCheck :=
  match step.kind with
  | .erc20Allowance =>
    (decodeWordUint256 value).map (fun allowance => ⟨step, sufficientExchangeAllowance allowance, some allowance⟩)
  | .erc1155Operator => (decodeWordBool value).map (fun approved => ⟨step, approved, none⟩)

/-- One of the reads that `async_check_approvals` starts side by side. -/
def checkApproval (owner : EvmAddress) (step : ApprovalStep) (context : RequestContext) : Rpc (Result ApprovalCheck) :=
  client.read step.token (client.approvalData owner step) (approvalCheck step) context

structure ApprovalRun where
  owner : EvmAddress
  transactionSender : EvmAddress
  route : RouteOptions
  signer : Option DigestSigner
  options : ApprovalRunOptions
  -- a progress callback was given
  progress : Bool
  context : RequestContext

namespace ApprovalRun

variable (run : ApprovalRun)

def notify (note : ApprovalProgress) : Rpc Unit := if run.progress then Rpc.progress note else return ()

def failCurrent (step : ApprovalStep) (error : Error) : Rpc ApprovalStepResult := do
  run.notify ⟨step, .failed, none, some error⟩
  return ⟨step, .failed, none, some error⟩

def submitted (step : ApprovalStep) : Result TransactionExecution → Rpc ApprovalStepResult
  | .error error => run.failCurrent step error
  | .ok execution =>
    if execution.confirmedSuccess = false then do
      let issue := execution.issue.getD ⟨.ambiguousSubmission, ascii "approval transaction outcome is not confirmed", [], 0, 0⟩
      run.notify ⟨step, .failed, some execution.rawTransaction.transactionHash, some issue⟩
      return ⟨step, .failed, some execution, some issue⟩
    else do
      run.notify ⟨step, .confirmed, some execution.rawTransaction.transactionHash, none⟩
      return ⟨step, .confirmed, some execution, none⟩

def submit (step : ApprovalStep) : Rpc ApprovalStepResult :=
  match approvalTransaction client.keccak step run.options.erc20AllowanceAmount true >>=
      fun direct => routeTransaction client.keccak direct run.route with
  | .error error => run.failCurrent step error
  | .ok transaction => do
    run.notify ⟨step, .submitting, none, none⟩
    let executed ← client.execute run.transactionSender transaction run.signer run.options.receiptWait run.context
    run.submitted step executed

def satisfied (step : ApprovalStep) (value : Bytes) : Result Bool :=
  match step.kind with
  | .erc20Allowance => (decodeWordUint256 value).map (fun allowance =>
      match run.options.erc20AllowanceAmount with
      | some required => decide (required.toNat ≤ allowance.toNat)
      | none => sufficientExchangeAllowance allowance)
  | .erc1155Operator => decodeWordBool value

-- a check that cannot be read falls through to the transaction
def checkOrSubmit (step : ApprovalStep) : Rpc ApprovalStepResult := do
  run.notify ⟨step, .checking, none, none⟩
  match ← client.read step.token (client.approvalData run.owner step) (run.satisfied step) run.context with
  | .ok true => do
    run.notify ⟨step, .skipped, none, none⟩
    return ⟨step, .skipped, none, none⟩
  | _ => run.submit client step

def runStep (step : ApprovalStep) : Rpc ApprovalStepResult := do
  if ← Rpc.stopRequested then
    run.failCurrent step ⟨.cancelled, ascii "approval run cancelled", [], 0, 0⟩
  else if run.options.skipSatisfied then run.checkOrSubmit client step
  else run.submit client step

def finish (steps : List ApprovalStepResult) : ApprovalRunReport :=
  ⟨steps.all (fun step => step.state = .skipped || step.state = .confirmed), steps⟩

def runSteps : List ApprovalStep → List ApprovalStepResult → Rpc ApprovalRunReport
  | [], finished => do
    let _ ← Rpc.stopRequested
    return finish finished
  | step :: rest, finished => do
    let result ← run.runStep client step
    if result.state = .failed ∧ run.options.stopOnError = true then return finish (finished ++ [result])
    else runSteps rest (finished ++ [result])

end ApprovalRun

def uniqueSteps (steps : List ApprovalStep) : List ApprovalStep :=
  steps.foldl (fun unique candidate => if unique.any (fun existing => existing.id = candidate.id) then unique
    else unique ++ [candidate]) []

def runApprovals (run : ApprovalRun) (steps : List ApprovalStep) : Rpc (Result ApprovalRunReport) :=
  if run.signer.isNone then
    return fail .invalidArgument "transaction digest signer is required" "signer"
  else do
    let report ← run.runSteps client (uniqueSteps steps) []
    return .ok report

end ChainClient

end PredictFun.Chain
