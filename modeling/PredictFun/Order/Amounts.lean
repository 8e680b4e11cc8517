import PredictFun.Types.Wei

namespace PredictFun.Order

open Codec

structure OrderAmounts where
  lastPriceWei : Uint256
  pricePerShareWei : Uint256
  makerAmount : Uint256
  takerAmount : Uint256
  amount : Uint256
  slippageBps : Uint256
  isMinAmountOut : Bool
  deriving DecidableEq

structure OrderDepthLevel where
  priceWei : Uint256
  quantityWei : Uint256
  deriving DecidableEq

structure OrderDepth where
  asks : List OrderDepthLevel
  bids : List OrderDepthLevel

structure LimitAmountsInput where
  side : ContractSide
  pricePerShareWei : Uint256
  quantityWei : Uint256

structure MarketQuantityInput where
  side : ContractSide
  quantityWei : Uint256
  slippageBps : Uint256
  isMinAmountOut : Bool

structure MarketValueInput where
  valueWei : Uint256
  slippageBps : Uint256
  isMinAmountOut : Bool

def precision : ℕ := 1000000000 * 1000000000

def minimumQuantity : ℕ := 10000000000000000

def minimumValue : ℕ := precision

def basisPoints : ℕ := 10000

def protocolDecimals : ℕ := 18

def decimalToWei (decimal : Bytes) : Result Uint256 :=
  if decimal = [] ∨ decimal.head? = some (byte '-') ∨ decimal.head? = some (byte '+') then
    fail .invalidDecimal "expected an unsigned plain decimal" ""
  else if decimal.count (byte '.') > 1 then fail .invalidDecimal "decimal contains more than one point" ""
  else
    let whole := decimal.takeWhile (fun c => c ≠ byte '.')
    let fraction := (decimal.dropWhile (fun c => c ≠ byte '.')).tail
    if whole = [] ∨ fraction.length > protocolDecimals ∨ (byte '.' ∈ decimal ∧ fraction = []) then
      fail .unsupportedPrecision "decimal cannot be represented with 18 places" ""
    else if whole.all isDigit = false ∨ fraction.all isDigit = false then
      fail .invalidDecimal "decimal must use plain base-10 notation" ""
    else
      Uint256.parse (Uint256.canonical
        (whole ++ fraction ++ List.replicate (protocolDecimals - fraction.length) (byte '0')))

def truncateSignificant (value digits : ℕ) : ℕ :=
  if value = 0 then value
  else
    let text := decimalText value
    if text.length ≤ digits then value
    else
      let divisor := 10 ^ (text.length - digits)
      value / divisor * divisor

structure ProcessedBook where
  quantity : ℕ := 0
  weightedPrice : ℕ := 0
  lastPrice : ℕ := 0
  deriving DecidableEq

namespace ProcessedBook

def consume (price consumed : ℕ) (s : ProcessedBook) : ProcessedBook :=
  ⟨s.quantity + consumed, s.weightedPrice + price * consumed, price⟩

-- the remaining quantity is not negative: no level gives more than remains
def loop (requested : ℕ) : List OrderDepthLevel → ProcessedBook → Result ProcessedBook
  | [], s => .ok s
  | level :: rest, s => do
    let price ← integer level.priceWei
    let quantity ← integer level.quantityWei
    if price = 0 ∨ price > precision ∨ quantity = 0 then
      fail .invalidOrderbook "order book level must have price in (0,1] and positive quantity" ""
    else
      let remaining := requested - s.quantity
      if remaining = 0 then .ok s
      else loop requested rest (s.consume price (if remaining < quantity then remaining else quantity))

end ProcessedBook

def insufficientLiquidity : Error :=
  ⟨.invalidOrderbook, ascii "order book does not contain the requested liquidity", ascii "", 0, 0⟩

def processBook (levels : List OrderDepthLevel) (requested : ℕ) : Result ProcessedBook := do
  let result ← ProcessedBook.loop requested levels {}
  if result.quantity < requested then .error insufficientLiquidity else .ok result

def deflated (base slippage : ℕ) : ℕ :=
  if slippage > basisPoints then 0 else base * (basisPoints - slippage) / basisPoints

def marketSides (side : ContractSide) (isMinAmountOut : Bool) (quantity slippage : ℕ) (processed : ProcessedBook) : ℕ × ℕ :=
  if side = .buy ∧ isMinAmountOut then
    let signedShares := if processed.lastPrice > 0 then processed.weightedPrice / processed.lastPrice else 0
    (processed.weightedPrice / precision, deflated signedShares slippage)
  else if side = .buy then
    let base := processed.lastPrice * quantity / precision
    if slippage > 0 then
      let inflated := base * (basisPoints + slippage) / basisPoints
      (if inflated < quantity then inflated else quantity, quantity)
    else (base, quantity)
  else (quantity, deflated (processed.lastPrice * quantity / precision) slippage)

def marketQuantity (input : MarketQuantityInput) (book : OrderDepth) : Result OrderAmounts := do
  let rawQuantity ← integer input.quantityWei
  let slippage ← integer input.slippageBps
  let quantity := truncateSignificant rawQuantity 5
  if quantity < minimumQuantity then fail .invalidQuantity "order quantity is below the protocol minimum" "quantity"
  else if input.side ≠ .buy ∧ input.side ≠ .sell then fail .invalidArgument "order side is unknown" "side"
  else
    let levels := if input.side = .buy then book.asks else book.bids
    let processed ← processBook levels quantity
    let average := processed.weightedPrice / quantity
    let (maker, taker) := marketSides input.side input.isMinAmountOut quantity slippage processed
    let last ← uint256 processed.lastPrice
    let avg ← uint256 average
    let makerU ← uint256 maker
    let takerU ← uint256 taker
    let amount ← uint256 quantity
    .ok ⟨last, avg, makerU, takerU, amount, input.slippageBps, input.isMinAmountOut⟩

def limitOrder (price quantity maker taker : ℕ) : Result OrderAmounts :=
  match uint256 price, uint256 quantity, uint256 maker, uint256 taker, Uint256.parse (ascii "0") with
  | .ok priceU, .ok quantityU, .ok makerU, .ok takerU, .ok zero =>
    .ok ⟨priceU, priceU, makerU, takerU, quantityU, zero, false⟩
  | _, _, _, _, _ => fail .numericOverflow "order amount exceeds uint256" ""

def limitAmounts (input : LimitAmountsInput) : Result OrderAmounts := do
  if input.side ≠ .buy ∧ input.side ≠ .sell then fail .invalidArgument "order side is unknown" "side"
  else
    let rawPrice ← integer input.pricePerShareWei
    let rawQuantity ← integer input.quantityWei
    let price := truncateSignificant rawPrice 3
    let quantity := truncateSignificant rawQuantity 5
    if quantity < minimumQuantity then fail .invalidQuantity "order quantity is below the protocol minimum" "quantity"
    else if price = 0 then fail .invalidPrice "price must be greater than zero" "price"
    else
      let collateral := price * quantity / precision
      let maker := if input.side = .buy then collateral else quantity
      let taker := if input.side = .buy then quantity else collateral
      limitOrder price quantity maker taker

def MarketQuantityInput.marketAmounts (input : MarketQuantityInput) (book : OrderDepth) : Result OrderAmounts :=
  marketQuantity input book

structure ValueBuy where
  shares : ℕ := 0
  spent : ℕ := 0
  deriving DecidableEq

-- nor is the remaining value: no level costs more than remains
def ValueBuy.loop (value : ℕ) : List OrderDepthLevel → ValueBuy → Result ValueBuy
  | [], s => .ok s
  | level :: rest, s => do
    let price ← integer level.priceWei
    let quantity ← integer level.quantityWei
    if price = 0 ∨ price > precision ∨ quantity = 0 then fail .invalidOrderbook "invalid ask level" ""
    else
      let remaining := value - s.spent
      if remaining = 0 then .ok s
      else
        let levelCost := price * quantity / precision
        if levelCost ≤ remaining then loop value rest ⟨s.shares + quantity, s.spent + levelCost⟩
        else
          let partialShares := remaining * precision / price
          loop value rest ⟨s.shares + partialShares, s.spent + price * partialShares / precision⟩

def MarketValueInput.marketAmounts (input : MarketValueInput) (book : OrderDepth) : Result OrderAmounts := do
  let value ← integer input.valueWei
  if value < minimumValue then fail .invalidQuantity "market buy value is below one collateral token" "value"
  else
    let bought ← ValueBuy.loop value book.asks {}
    if bought.shares = 0 then fail .invalidOrderbook "order book has no buyable liquidity" ""
    else
      let quantity ← uint256 (truncateSignificant bought.shares 5)
      marketQuantity ⟨.buy, quantity, input.slippageBps, input.isMinAmountOut⟩ book

end PredictFun.Order
