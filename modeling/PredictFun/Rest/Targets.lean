import PredictFun.Base.UrlQuery
import PredictFun.Codec.Integers
import PredictFun.Types.Chain

namespace PredictFun.Rest

open Base Codec

/-- In the C locale. -/
def isAlnum (c : Byte) : Bool :=
  isDigit c || decide (0x41 ≤ c.toNat ∧ c.toNat ≤ 0x5a) || decide (0x61 ≤ c.toNat ∧ c.toNat ≤ 0x7a)

def safeToken (value : Bytes) : Bool :=
  !value.isEmpty && value.all fun c => isAlnum c || c == byte '_' || c == byte '-' || c == byte '.'

def unreserved (c : Byte) : Bool :=
  isAlnum c || c == byte '-' || c == byte '_' || c == byte '.' || c == byte '~'

def unreservedKept : Percent.Kept where
  keep := unreserved
  percent := by decide

def percentEncode (value : Bytes) : Bytes := Percent.encode unreservedKept value

def addQuery (target name value : Bytes) : Bytes :=
  target ++ (if byte '?' ∈ target then byte '&' else byte '?') :: (name ++ byte '=' :: percentEncode value)

def addOptional (target : Bytes) (name : String) : Option Bytes → Bytes
  | none => target
  | some value => addQuery target (ascii name) value

def boolText (value : Bool) : Bytes := if value then ascii "true" else ascii "false"

def outside (bound : ℕ) (value : ℕ) : Bool := value == 0 || decide (bound < value)

/-- The queries of markets and of categories have the same fields and go through one template. -/
@[ext] structure CollectionQuery where
  first : Option ℕ := none
  after : Option Bytes := none
  status : Option Bytes := none
  marketVariant : Option Bytes := none

def collectionTarget (base : Bytes) (query : CollectionQuery) : Result Bytes :=
  if query.first.any (outside 1000) then fail .invalidArgument "first must be between 1 and 1000" "first"
  else if query.status.any (!safeToken ·) then fail .invalidArgument "invalid status" "status"
  else if query.marketVariant.any (!safeToken ·) then fail .invalidArgument "invalid market variant" "marketVariant"
  else
    let target := addOptional base "first" (query.first.map decimalText)
    let target := addOptional target "after" query.after
    let target := addOptional target "status" query.status
    .ok (addOptional target "marketVariant" query.marketVariant)

def marketsTarget (query : CollectionQuery) : Result Bytes := collectionTarget (ascii "/v1/markets") query

def categoriesTarget (query : CollectionQuery) : Result Bytes := collectionTarget (ascii "/v1/categories") query

def marketTarget (marketId : MarketId) : Result Bytes :=
  if marketId.value = 0 then fail .invalidArgument "market id must be positive" "market_id"
  else .ok (ascii "/v1/markets/" ++ decimalText marketId.value.toNat)

@[ext] structure TimeseriesQuery where
  metric : Bytes
  resolution : Option Bytes := none
  fromTime : Option ℤ := none
  toTime : Option ℤ := none
  limit : Option ℕ := none
  after : Option Bytes := none

def timeseriesTarget (marketId : MarketId) (query : TimeseriesQuery) : Result Bytes := do
  let market ← marketTarget marketId
  if safeToken query.metric = false then fail .invalidArgument "invalid timeseries metric" "metric"
  else if query.resolution.any (!safeToken ·) then fail .invalidArgument "invalid timeseries resolution" "resolution"
  else if query.fromTime.any fun first => query.toTime.any fun last => last < first then
    fail .invalidArgument "from must not exceed to" "from"
  else if query.limit.any (outside 100000) then
    fail .invalidArgument "timeseries limit must be between 1 and 100000" "limit"
  else
    let target := addQuery (market ++ ascii "/timeseries") (ascii "metric") query.metric
    let target := addOptional target "resolution" query.resolution
    let target := addOptional target "from" (query.fromTime.map integerText)
    let target := addOptional target "to" (query.toTime.map integerText)
    let target := addOptional target "limit" (query.limit.map decimalText)
    .ok (addOptional target "after" query.after)

@[ext] structure MatchesQuery where
  first : Option ℕ := none
  after : Option Bytes := none
  category : Option Bytes := none
  marketId : Option MarketId := none
  minValueUsdtWei : Option Uint256 := none
  signerAddress : Option EvmAddress := none
  isSignerMaker : Option Bool := none

def marketIdText (marketId : MarketId) : Bytes := decimalText marketId.value.toNat

def matchesTarget (query : MatchesQuery) : Result Bytes :=
  if query.first.any (outside 1000) then fail .invalidArgument "first must be between 1 and 1000" "first"
  else if query.category.any (!safeToken ·) then fail .invalidArgument "invalid category" "category"
  else if query.marketId.any (·.value == 0) then fail .invalidArgument "market id must be positive" "market_id"
  else if query.signerAddress.any EvmAddress.empty then
    fail .invalidArgument "signer address must not be zero" "signer_address"
  else
    let target := addOptional (ascii "/v1/orders/matches") "first" (query.first.map decimalText)
    let target := addOptional target "after" query.after
    let target := addOptional target "category" query.category
    let target := addOptional target "marketId" (query.marketId.map marketIdText)
    let target := addOptional target "minValueUsdtWei" (query.minValueUsdtWei.map Uint256.text)
    let target := addOptional target "signerAddress" (query.signerAddress.map EvmAddress.text)
    .ok (addOptional target "isSignerMaker" (query.isSignerMaker.map boolText))

@[ext] structure SearchQuery where
  query : Bytes
  includeResolved : Option Bool := none
  limit : Option ℕ := none

def searchTarget (query : SearchQuery) : Result Bytes :=
  if query.query = [] ∨ 256 < query.query.length then
    fail .invalidArgument "search query must contain between 1 and 256 bytes" "query"
  else if query.limit.any (outside 25) then fail .invalidArgument "search limit must be between 1 and 25" "limit"
  else
    let target := addQuery (ascii "/v1/search") (ascii "query") query.query
    let target := addOptional target "includeResolved" (query.includeResolved.map boolText)
    .ok (addOptional target "limit" (query.limit.map decimalText))

@[ext] structure PageQuery where
  first : Option ℕ := none
  after : Option Bytes := none

@[ext] structure PositionsQuery extends PageQuery where
  marketId : Option MarketId := none
  isResolved : Option Bool := none
  sort : Option Bytes := none

def supportedPositionSort (value : Bytes) : Bool :=
  value == ascii "AMOUNT_DESC" || value == ascii "EVENT_BLOCK_ASC" || value == ascii "EVENT_BLOCK_DESC" ||
    value == ascii "SHARES_VALUE_DESC" || value == ascii "RETURN_DESC"

/-- The query of the positions of an address has the same fields as that of one's own. -/
def addressPositionsTarget (address : EvmAddress) (query : PositionsQuery) : Result Bytes :=
  if address.empty then fail .invalidArgument "position address must not be zero" "address"
  else if query.first.any (outside 1000) then fail .invalidArgument "first must be between 1 and 1000" "first"
  else if query.marketId.any (·.value == 0) then fail .invalidArgument "market id must be positive" "market_id"
  else if query.sort.any (!supportedPositionSort ·) then fail .invalidArgument "unsupported position sort" "sort"
  else
    let target := addOptional (ascii "/v1/positions/" ++ address.text) "first" (query.first.map decimalText)
    let target := addOptional target "after" query.after
    let target := addOptional target "marketId" (query.marketId.map marketIdText)
    let target := addOptional target "isResolved" (query.isResolved.map boolText)
    .ok (addOptional target "sort" query.sort)

def addPage (target : Bytes) (query : PageQuery) : Result Bytes :=
  if query.first.any (outside 1000) then fail .invalidArgument "first must be between 1 and 1000" "first"
  else .ok (addOptional (addOptional target "first" (query.first.map decimalText)) "after" query.after)

def positionsTarget (query : PositionsQuery) : Result Bytes := do
  let target ← addPage (ascii "/v1/positions") query.toPageQuery
  if query.marketId.any (·.value == 0) then fail .invalidArgument "market id must be positive" "market_id"
  else
    let target := addOptional target "marketId" (query.marketId.map marketIdText)
    let target := addOptional target "isResolved" (query.isResolved.map boolText)
    if query.sort.any (!safeToken ·) then fail .invalidArgument "invalid position sort" "sort"
    else .ok (addOptional target "sort" query.sort)

@[ext] structure OrdersQuery extends PageQuery where
  status : Option Bytes := none

def ordersTarget (query : OrdersQuery) : Result Bytes := do
  let target ← addPage (ascii "/v1/orders") query.toPageQuery
  if query.status.any (!safeToken ·) then fail .invalidArgument "invalid order status" "status"
  else .ok (addOptional target "status" query.status)

@[ext] structure ActivityQuery extends PageQuery where
  eventTypes : List Bytes := []

def addEventType (target event : Bytes) : Result Bytes :=
  if safeToken event = false then fail .invalidArgument "invalid activity event type" "event_types"
  else .ok (addQuery target (ascii "eventTypes") event)

def activityTarget (query : ActivityQuery) : Result Bytes := do
  let target ← addPage (ascii "/v1/account/activity") query.toPageQuery
  query.eventTypes.foldlM addEventType target

end PredictFun.Rest
