import PredictFun.Types.Orderbook
import PredictFun.Types.Wei

namespace PredictFun.Analysis

structure MarketBuyQuote where
  requestedValueWei : Uint256
  spentValueWei : Uint256
  unspentValueWei : Uint256
  sharesWei : Uint256
  vwapPriceWei : Uint256
  worstPriceWei : Uint256
  levelsConsumed : ℕ
  complete : Bool
  deriving DecidableEq

structure MarketSellQuote where
  requestedSharesWei : Uint256
  soldSharesWei : Uint256
  unsoldSharesWei : Uint256
  returnedValueWei : Uint256
  vwapPriceWei : Uint256
  worstPriceWei : Uint256
  levelsConsumed : ℕ
  complete : Bool
  deriving DecidableEq

structure ImmediateRoundTripQuote where
  buy : MarketBuyQuote
  sell : MarketSellQuote
  recoveredValueWei : Uint256
  bookLossValueWei : Uint256
  complete : Bool
  deriving DecidableEq

def protocolScale : ℕ := 1000000000 * 1000000000

def powerOfTen (exponent : BitVec 8) : ℕ := 10 ^ exponent.toNat

def priceWei (value : Price) : ℕ := value.ticks.toNat * protocolScale / value.tickScale.toNat

-- the difference of the scales is cast to eight bits
def quantityWei (value : FixedDecimal) : ℕ :=
  value.units.toNat * powerOfTen (BitVec.ofNat 8 FixedDecimal.maxScale - value.scale)

structure Purchase where
  spent : ℕ := 0
  shares : ℕ := 0
  weightedPrice : ℕ := 0
  worstPrice : ℕ := 0
  previousPrice : ℕ := 0
  consumedLevels : ℕ := 0
  deriving DecidableEq

namespace Purchase

/-- The end of a round: a level that gives nothing, or costs nothing, is passed over. -/
def consume (price consumedQuantity consumedCost : ℕ) (s : Purchase) : Purchase :=
  if consumedQuantity = 0 ∨ consumedCost = 0 then s
  else
    { s with
      spent := s.spent + consumedCost
      shares := s.shares + consumedQuantity
      weightedPrice := s.weightedPrice + price * consumedQuantity
      worstPrice := price
      consumedLevels := s.consumedLevels + 1 }

-- a subtraction below zero would stop the loop as well
def loop (requested : ℕ) : List PriceLevel → Purchase → Result Purchase
  | [], s => .ok s
  | level :: rest, s =>
    let price := priceWei level.price
    let quantity := quantityWei level.quantity
    if price = 0 ∨ price > protocolScale ∨ quantity = 0 then
      fail .invalidOrderbook "ask level must have price in (0,1] and positive quantity" ""
    else if s.previousPrice > price then fail .invalidOrderbook "ask levels must be sorted best-to-worst" ""
    else
      let s := { s with previousPrice := price }
      let remaining := requested - s.spent
      if remaining ≤ 1 then .ok s
      else
        let levelCost := price * quantity / protocolScale
        if levelCost > remaining then
          let consumedQuantity := remaining * protocolScale / price
          if consumedQuantity = 0 then .ok s
          else loop requested rest (s.consume price consumedQuantity (price * consumedQuantity / protocolScale))
        else loop requested rest (s.consume price quantity levelCost)

end Purchase

def exceedsUint256 {α : Type} : Result α := fail .numericOverflow "liquidity quote exceeds uint256" ""

def quoteMarketBuyValue (valueWei : Uint256) (asks : List PriceLevel) : Result MarketBuyQuote := do
  let requested ← integer valueWei
  if requested = 0 then fail .invalidQuantity "market buy value must be greater than zero" "value"
  else
    let bought ← Purchase.loop requested asks {}
    let unspent : ℤ := (requested : ℤ) - bought.spent
    let vwap := if bought.shares > 0 then bought.weightedPrice / bought.shares else 0
    match uint256 bought.spent, uint256 unspent, uint256 bought.shares, uint256 vwap, uint256 bought.worstPrice with
    | .ok spent, .ok unspentU, .ok shares, .ok vwap, .ok worst =>
      .ok ⟨valueWei, spent, unspentU, shares, vwap, worst, bought.consumedLevels, decide (unspent ≤ 1)⟩
    | _, _, _, _, _ => exceedsUint256

structure Sale where
  sold : ℕ := 0
  returned : ℕ := 0
  weightedPrice : ℕ := 0
  worstPrice : ℕ := 0
  previousPrice : ℕ := protocolScale + 1
  consumedLevels : ℕ := 0
  deriving DecidableEq

namespace Sale

def loop (requested : ℕ) : List PriceLevel → Sale → Result Sale
  | [], s => .ok s
  | level :: rest, s =>
    let price := priceWei level.price
    let quantity := quantityWei level.quantity
    if price = 0 ∨ price > protocolScale ∨ quantity = 0 then
      fail .invalidOrderbook "bid level must have price in (0,1] and positive quantity" ""
    else if s.previousPrice < price then fail .invalidOrderbook "bid levels must be sorted best-to-worst" ""
    else
      let s := { s with previousPrice := price }
      let remaining := requested - s.sold
      if remaining ≤ 1 then .ok s
      else
        let consumedQuantity := if quantity < remaining then quantity else remaining
        if consumedQuantity = 0 then loop requested rest s
        else
          loop requested rest
            { s with
              sold := s.sold + consumedQuantity
              returned := s.returned + price * consumedQuantity / protocolScale
              weightedPrice := s.weightedPrice + price * consumedQuantity
              worstPrice := price
              consumedLevels := s.consumedLevels + 1 }

end Sale

def quoteMarketSellShares (sharesWei : Uint256) (bids : List PriceLevel) : Result MarketSellQuote := do
  let requested ← integer sharesWei
  if requested = 0 then fail .invalidQuantity "market sell shares must be greater than zero" "shares"
  else
    let made ← Sale.loop requested bids {}
    let unsold : ℤ := (requested : ℤ) - made.sold
    let vwap := if made.sold > 0 then made.weightedPrice / made.sold else 0
    match uint256 made.sold, uint256 unsold, uint256 made.returned, uint256 vwap, uint256 made.worstPrice with
    | .ok sold, .ok unsoldU, .ok returned, .ok vwap, .ok worst =>
      .ok ⟨sharesWei, sold, unsoldU, returned, vwap, worst, made.consumedLevels, decide (unsold ≤ 1)⟩
    | _, _, _, _, _ => exceedsUint256

def zero : Uint256 := .zero

def MarketSellQuote.none : MarketSellQuote := ⟨zero, zero, zero, zero, zero, zero, 0, false⟩

def quoteImmediateRoundTrip (valueWei : Uint256) (asks bids : List PriceLevel) : Result ImmediateRoundTripQuote := do
  let buy ← quoteMarketBuyValue valueWei asks
  if buy.sharesWei.isZero then .ok ⟨buy, .none, zero, zero, false⟩
  else
    let sell ← quoteMarketSellShares buy.sharesWei bids
    match integer buy.spentValueWei, integer sell.returnedValueWei with
    | .ok spent, .ok recovered =>
      let rawLoss : ℤ := (spent : ℤ) - recovered
      let loss := if rawLoss > 0 then rawLoss else 0
      let lossU ← uint256 loss
      .ok ⟨buy, sell, sell.returnedValueWei, lossU, buy.complete && sell.complete⟩
    | _, _ => fail .numericOverflow "round-trip value exceeds uint256" ""

end PredictFun.Analysis
