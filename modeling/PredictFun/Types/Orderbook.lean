import PredictFun.Types.Decimal

namespace PredictFun

inductive BookSide
  | bid
  | ask
  | unknown
  deriving DecidableEq

inductive OrderKind
  | limit
  | market
  | unknown
  deriving DecidableEq

inductive ContractOutcome
  | yes
  | no
  | unknown
  deriving DecidableEq

structure PriceLevel where
  price : Price
  quantity : FixedDecimal
  deriving DecidableEq

structure PendingSettlementLevels where
  yesBids : List PriceLevel
  yesAsks : List PriceLevel
  deriving DecidableEq

structure LastOrderSettled where
  id : Bytes
  kind : EnumValue OrderKind
  marketId : MarketId
  outcome : EnumValue ContractOutcome
  price : Price
  side : EnumValue BookSide
  deriving DecidableEq

structure Orderbook where
  marketId : MarketId
  updateTimestampMs : ℤ
  decimalPrecision : BitVec 8
  yesBids : List PriceLevel
  yesAsks : List PriceLevel
  orderCount : Option (BitVec 64)
  lastOrderSettled : Option LastOrderSettled
  settlementsPending : Option FixedDecimal
  settlementLevelsPending : Option PendingSettlementLevels
  deriving DecidableEq

structure NoOrderbookView where
  marketId : MarketId
  updateTimestampMs : ℤ
  noBids : List PriceLevel
  noAsks : List PriceLevel
  deriving DecidableEq

def PriceLevel.complement (level : PriceLevel) : PriceLevel := ⟨level.price.complement, level.quantity⟩

def deriveNoBook (yesBook : Orderbook) : NoOrderbookView where
  marketId := yesBook.marketId
  updateTimestampMs := yesBook.updateTimestampMs
  noBids := yesBook.yesAsks.map PriceLevel.complement
  noAsks := yesBook.yesBids.map PriceLevel.complement

end PredictFun
