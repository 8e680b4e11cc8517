import PredictFun.Types.Evm

namespace PredictFun

inductive ChainId
  | bnbMainnet
  | bnbTestnet
  deriving DecidableEq

def ChainId.value : ChainId → ℕ
  | .bnbMainnet => 56
  | .bnbTestnet => 97

structure Bytes32 where
  bytes : Bytes
  size : bytes.length = 32
  deriving DecidableEq

abbrev Hash32 := Bytes32

inductive BlockTag
  | latest
  | safe
  | finalized
  | pending
  deriving DecidableEq

structure RpcEndpoint where
  host : Bytes
  port : Bytes := ascii "443"
  target : Bytes := ascii "/"
  useTls : Bool := true
  deriving DecidableEq

def defaultRpcEndpoint : ChainId → RpcEndpoint
  | .bnbMainnet => { host := ascii "bsc-dataseed.bnbchain.org" }
  | .bnbTestnet => { host := ascii "bsc-testnet-dataseed.bnbchain.org" }

structure CallRequest where
  toAddress : EvmAddress
  data : Bytes
  fromAddress : Option EvmAddress
  deriving DecidableEq

structure UnsignedTransaction where
  toAddress : EvmAddress
  data : Bytes
  value : Uint256
  deriving DecidableEq

structure PopulatedTransaction where
  chainId : ChainId
  fromAddress : EvmAddress
  toAddress : EvmAddress
  nonce : Uint256
  gasPrice : Uint256
  gasLimit : Uint256
  value : Uint256
  data : Bytes
  deriving DecidableEq

structure RawTransaction where
  bytes : Bytes
  transactionHash : Bytes
  deriving DecidableEq

inductive TransactionSubmissionState
  | accepted
  | ambiguous
  deriving DecidableEq

structure TransactionSubmission where
  state : TransactionSubmissionState
  transactionHash : Bytes
  ambiguity : Option Error
  deriving DecidableEq

structure ReceiptWaitOptions where
  -- milliseconds
  pollInterval : ℤ := 300
  deriving DecidableEq

structure TransactionReceipt where
  transactionHash : Bytes
  blockHash : Option Bytes
  blockNumber : Option Uint256
  status : Option Uint256
  gasUsed : Option Uint256
  effectiveGasPrice : Option Uint256
  deriving DecidableEq

def TransactionReceipt.confirmedSuccess (receipt : TransactionReceipt) : Bool :=
  receipt.status.any (fun status => status.text = ascii "1")

def TransactionReceipt.confirmedRevert (receipt : TransactionReceipt) : Bool := receipt.status.any Uint256.isZero

inductive TransactionExecutionState
  | confirmed
  | reverted
  | outcomeUnknown
  deriving DecidableEq

structure TransactionExecution where
  state : TransactionExecutionState
  transaction : PopulatedTransaction
  rawTransaction : RawTransaction
  submission : TransactionSubmission
  receipt : Option TransactionReceipt
  issue : Option Error
  deriving DecidableEq

def TransactionExecution.confirmedSuccess (execution : TransactionExecution) : Bool :=
  decide (execution.state = .confirmed) && execution.receipt.any TransactionReceipt.confirmedSuccess

inductive ApprovalKind
  | erc1155Operator
  | erc20Allowance
  deriving DecidableEq

structure ApprovalStep where
  id : Bytes
  kind : ApprovalKind
  spender : EvmAddress
  token : EvmAddress
  label : Bytes
  description : Bytes
  deriving DecidableEq

structure ApprovalCheck where
  step : ApprovalStep
  satisfied : Bool
  allowance : Option Uint256
  deriving DecidableEq

inductive ApprovalProgressState
  | checking
  | skipped
  | submitting
  | confirmed
  | failed
  deriving DecidableEq

structure ApprovalProgress where
  step : ApprovalStep
  state : ApprovalProgressState
  transactionHash : Option Bytes
  issue : Option Error
  deriving DecidableEq

structure ApprovalStepResult where
  step : ApprovalStep
  state : ApprovalProgressState
  transaction : Option TransactionExecution
  issue : Option Error
  deriving DecidableEq

structure ApprovalRunOptions where
  skipSatisfied : Bool := true
  stopOnError : Bool := true
  receiptWait : ReceiptWaitOptions := {}
  erc20AllowanceAmount : Option Uint256 := none
  deriving DecidableEq

structure ApprovalRunReport where
  success : Bool
  steps : List ApprovalStepResult
  deriving DecidableEq

inductive TransactionRoute
  | eoa
  | predictAccount
  deriving DecidableEq

structure RouteOptions where
  route : TransactionRoute := .eoa
  predictAccount : Option EvmAddress := none
  deriving DecidableEq

def EvmAddress.empty (address : EvmAddress) : Bool := address.bytes.all (fun value => value = 0)

end PredictFun
