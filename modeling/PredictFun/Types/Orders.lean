import PredictFun.Types.ExactNumber

namespace PredictFun

structure EvmAddress where
  bytes : Bytes
  size : bytes.length = 20
  deriving DecidableEq

def EvmAddress.filled (b : Byte) : EvmAddress := ⟨List.replicate 20 b, List.length_replicate⟩

structure MarketId where
  value : BitVec 64
  deriving DecidableEq

structure EnumValue (α : Type) where
  value : α
  raw : Bytes
  deriving DecidableEq

inductive ContractSide
  | buy
  | sell
  | unknown
  deriving DecidableEq

inductive SignatureType
  | eoa
  | polyProxy
  | polyGnosisSafe
  | unknown
  deriving DecidableEq

inductive OrderStrategy
  | market
  | limit
  | unknown
  deriving DecidableEq

inductive OrderStatus
  | open
  | matched
  | cancelled
  | expired
  | invalidated
  | failed
  | unknown
  deriving DecidableEq

structure ContractOrder where
  hash : Bytes
  salt : Uint256
  maker : EvmAddress
  signer : EvmAddress
  taker : Option EvmAddress
  tokenId : Uint256
  makerAmount : Uint256
  takerAmount : Uint256
  expiration : Uint256
  nonce : Uint256
  feeRateBps : Uint256
  side : EnumValue ContractSide
  signatureType : EnumValue SignatureType
  signature : Bytes
  deriving DecidableEq

structure OrderRecord where
  order : ContractOrder
  id : Bytes
  marketId : MarketId
  currency : Bytes
  amount : ExactDecimal
  amountFilled : ExactDecimal
  isNegRisk : Bool
  isYieldBearing : Bool
  strategy : EnumValue OrderStrategy
  status : EnumValue OrderStatus
  rewardEarningRate : ExactDecimal
  deriving DecidableEq

structure OrdersPage where
  cursor : Option Bytes
  orders : List OrderRecord
  deriving DecidableEq

inductive WalletEventType
  | orderAccepted
  | orderNotAccepted
  | orderExpired
  | orderCancelled
  | orderTransactionSubmitted
  | orderTransactionSuccess
  | orderTransactionFailed
  | unknown
  deriving DecidableEq

inductive WalletOutcome
  | yes
  | no
  | unknown
  deriving DecidableEq

inductive QuoteType
  | bid
  | ask
  | unknown
  deriving DecidableEq

inductive SettlementKind
  | sale
  | purchase
  | unknown
  deriving DecidableEq

inductive WalletFeeType
  | collateral
  | shares
  | unknown
  deriving DecidableEq

structure WalletEventDetails where
  marketId : MarketId
  outcomeIndex : BitVec 64
  marketQuestion : Bytes
  outcome : EnumValue WalletOutcome
  quoteType : EnumValue QuoteType
  quantity : ExactDecimal
  quantityFilled : ExactDecimal
  price : ExactDecimal
  value : ExactDecimal
  valueFilled : ExactDecimal
  strategyType : EnumValue OrderStrategy
  categorySlug : Bytes
  deriving DecidableEq

structure WalletFill where
  executedPriceWei : Uint256
  executedSizeWei : Uint256
  executedValueWei : Uint256
  deriving DecidableEq

structure WalletFee where
  amountWei : Uint256
  type : EnumValue WalletFeeType
  deriving DecidableEq

structure WalletEvent where
  type : EnumValue WalletEventType
  orderId : Bytes
  orderHash : Bytes
  walletAddress : EvmAddress
  timestampMs : BitVec 64
  details : WalletEventDetails
  reason : Option Bytes
  kind : Option (EnumValue SettlementKind)
  settlementId : Option Bytes
  fill : Option WalletFill
  isMaker : Option Bool
  fee : Option WalletFee
  deriving DecidableEq

inductive ExecutionStrategy
  | market
  | limit
  deriving DecidableEq

inductive SelfTradePrevention
  | cancelMaker
  | cancelTaker
  | cancelBoth
  deriving DecidableEq

inductive ReservedBalancePolicy
  | rejectMarketOrder
  deriving DecidableEq

structure SignedOrder where
  salt : Uint256
  maker : EvmAddress
  signer : EvmAddress
  taker : Option EvmAddress
  tokenId : Uint256
  makerAmount : Uint256
  takerAmount : Uint256
  expiration : Uint256
  nonce : Uint256
  feeRateBps : Uint256
  side : ContractSide
  signatureType : SignatureType
  signature : Bytes
  deriving DecidableEq

structure CreateOrderRequest where
  order : SignedOrder
  orderHash : Bytes
  pricePerShareWei : Uint256
  strategy : ExecutionStrategy
  slippageBps : Option Uint256
  isFillOrKill : Option Bool
  isPostOnly : Option Bool
  reservedBalancePolicy : Option ReservedBalancePolicy
  isMinAmountOut : Option Bool
  selfTradePrevention : Option SelfTradePrevention
  deriving DecidableEq

structure CreateOrderReceipt where
  code : Bytes
  orderId : Bytes
  orderHash : Bytes
  removalLockedUntil : Option Bytes
  deriving DecidableEq

inductive MutationDisposition
  | acknowledged
  | ambiguous
  deriving DecidableEq

structure MutationOutcome (α : Type) where
  disposition : MutationDisposition
  receipt : Option α
  ambiguity : Option Error
  reconciliationKey : Bytes
  deriving DecidableEq

inductive OrderLifecycleState
  | submissionPending
  | accepted
  | open
  | partiallyFilled
  | filled
  | bookRemoved
  | cancelled
  | expired
  | rejected
  | transactionPending
  | transactionFailed
  | ambiguous
  | unknown
  deriving DecidableEq

structure TrackedOrder where
  orderHash : Bytes
  orderId : Option Bytes
  amount : ExactDecimal
  amountFilled : ExactDecimal
  state : OrderLifecycleState
  reconciliationRequired : Bool
  streamGeneration : BitVec 64
  lastEventTimestampMs : BitVec 64
  reason : Bytes
  deriving DecidableEq

def OrderLifecycleState.terminal : OrderLifecycleState → Bool
  | .filled | .cancelled | .expired | .rejected | .transactionFailed => true
  | _ => false

namespace TrackedOrder

def terminal (order : TrackedOrder) : Bool := order.state.terminal

def safeToRebuildWithNewNonce (order : TrackedOrder) : Bool :=
  match order.state with
  | .cancelled | .expired | .rejected | .transactionFailed => true
  | _ => false

theorem safe_terminal (order : TrackedOrder) (h : order.safeToRebuildWithNewNonce = true) :
    order.terminal = true := by
  unfold safeToRebuildWithNewNonce at h
  unfold terminal OrderLifecycleState.terminal
  split at h <;> simp_all

end TrackedOrder

structure ReconciliationReport where
  tracked : ℕ
  observed : ℕ
  unresolvedHashes : List Bytes
  deriving DecidableEq

def ReconciliationReport.complete (report : ReconciliationReport) : Bool := report.unresolvedHashes.isEmpty

end PredictFun
