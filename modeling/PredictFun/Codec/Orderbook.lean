import PredictFun.Codec.PrivateRest
import PredictFun.Types.Orderbook

namespace PredictFun.Codec

structure BookDecodeLimits where
  maxBodyBytes : ℕ := 2 * 1024 * 1024
  maxBookLevelsPerSide : BitVec 64 := 20000
  maxStringBytes : ℕ := 256 * 1024

abbrev WireLevel := RawJson × RawJson

structure WireLastOrderSettled where
  id : Option Bytes
  kind : Option Bytes
  marketId : Option (BitVec 64)
  outcome : Option Bytes
  price : Option RawJson
  side : Option Bytes

structure WireOrderbook where
  asks : Option (List WireLevel)
  bids : Option (List WireLevel)
  lastOrderSettled : Option WireLastOrderSettled
  marketId : Option (BitVec 64)
  orderCount : Option (BitVec 64)
  settlementsPending : Option RawJson
  updateTimestampMs : Option ℤ

structure WirePendingSettlementLevels where
  asks : Option (List WireLevel)
  bids : Option (List WireLevel)

structure WireOrderbookResponse where
  success : Option Bool
  data : Option WireOrderbook

def Ordered (ascending : Bool) (left right : PriceLevel) : Prop :=
  if ascending then left.price.ticks ≤ right.price.ticks else right.price.ticks ≤ left.price.ticks

/-- `std::ranges::sort` by ticks.  Nothing is known about the order of levels with equal ticks. -/
structure LevelSort where
  sort : Bool → List PriceLevel → List PriceLevel
  perm : ∀ ascending levels, (sort ascending levels).Perm levels
  sorted : ∀ ascending levels, (sort ascending levels).Pairwise (Ordered ascending)

/-- What the libraries do: the JSON reader, with its error text for a body it cannot read, and the sort. -/
structure BookReader where
  string : Bytes → Option Bytes
  response : Bytes → Except Bytes WireOrderbookResponse
  book : Bytes → Except Bytes WireOrderbook
  pending : Bytes → Option WirePendingSettlementLevels
  levelSort : LevelSort

def parseOrderKind (raw : Bytes) : EnumValue OrderKind :=
  if raw = ascii "LIMIT" then ⟨.limit, raw⟩
  else if raw = ascii "MARKET" then ⟨.market, raw⟩
  else ⟨.unknown, raw⟩

def parseContractOutcome (raw : Bytes) : EnumValue ContractOutcome :=
  if raw = ascii "Yes" ∨ raw = ascii "YES" then ⟨.yes, raw⟩
  else if raw = ascii "No" ∨ raw = ascii "NO" then ⟨.no, raw⟩
  else ⟨.unknown, raw⟩

def parseBookSide (raw : Bytes) : EnumValue BookSide :=
  if raw = ascii "Bid" ∨ raw = ascii "BID" then ⟨.bid, raw⟩
  else if raw = ascii "Ask" ∨ raw = ascii "ASK" then ⟨.ask, raw⟩
  else ⟨.unknown, raw⟩

def aggregationOverflow (field : Bytes) : Error :=
  ⟨.invalidQuantity, ascii "duplicate book quantity aggregation overflowed", field, 0, 0⟩

def addQuantities (left right : FixedDecimal) (field : Bytes) : Result FixedDecimal :=
  let scale := if left.scale < right.scale then right.scale else left.scale
  match left.rescaleExact scale, right.rescaleExact scale with
  | .ok left, .ok right =>
    if right.units > BitVec.allOnes 64 - left.units then .error (aggregationOverflow field)
    else .ok ⟨left.units + right.units, scale⟩
  | _, _ => .error (aggregationOverflow field)

def normalize (field : Bytes) (normalized : List PriceLevel) (level : PriceLevel) : Result (List PriceLevel) :=
  match normalized.getLast? with
  | none => .ok [level]
  | some back =>
    if back.price.ticks ≠ level.price.ticks then .ok (normalized ++ [level])
    else do
      let quantity ← addQuantities back.quantity level.quantity field
      .ok (normalized.dropLast ++ [⟨back.price, quantity⟩])

def indexed (field : Bytes) (index : ℕ) : Bytes := field ++ ascii "[" ++ decimalText index ++ ascii "]"

namespace BookReader

variable (reader : BookReader)

def unquoteRaw (raw : RawJson) : Bytes := if quoted raw then (reader.string raw).getD raw else raw

def parseDecimalRaw (raw : RawJson) (field : Bytes) : Result FixedDecimal :=
  atField field (FixedDecimal.parse (reader.unquoteRaw raw))

def parsePriceRaw (raw : RawJson) (precision : BitVec 8) (field : Bytes) : Result Price :=
  atField field (Price.parse (reader.unquoteRaw raw) precision)

def convertLevel (wire : WireLevel) (precision : BitVec 8) (field : Bytes) : Result PriceLevel := do
  let price ← reader.parsePriceRaw wire.1 precision (field ++ ascii "[0]")
  let quantity ← reader.parseDecimalRaw wire.2 (field ++ ascii "[1]")
  if quantity.units = 0 then
    .error ⟨.invalidQuantity, ascii "book quantity must be positive", field ++ ascii "[1]", 0, 0⟩
  else .ok ⟨price, quantity⟩

def convertLevels (wire : List WireLevel) (precision : BitVec 8) (limits : BookDecodeLimits) (ascending : Bool)
    (field : Bytes) : Result (List PriceLevel) :=
  if wire.length > limits.maxBookLevelsPerSide.toNat then
    .error ⟨.tooManyItems, ascii "order-book side exceeds configured level limit", field, 0, 0⟩
  else do
    let levels ← wire.zipIdx.mapM (fun (level, index) => reader.convertLevel level precision (indexed field index))
    (reader.levelSort.sort ascending levels).foldlM (normalize field) []

def convertLastOrder (wire : WireLastOrderSettled) (precision : BitVec 8) (limits : BookDecodeLimits) :
    Result LastOrderSettled := do
  let id ← required wire.id (ascii "data.lastOrderSettled.id")
  let kind ← required wire.kind (ascii "data.lastOrderSettled.kind")
  let marketId ← required wire.marketId (ascii "data.lastOrderSettled.marketId")
  let outcome ← required wire.outcome (ascii "data.lastOrderSettled.outcome")
  let rawPrice ← required wire.price (ascii "data.lastOrderSettled.price")
  let side ← required wire.side (ascii "data.lastOrderSettled.side")
  if [id, kind, outcome, side].any (fun text => text.length > limits.maxStringBytes) then
    .error (invalid "last settled order string exceeds configured limit" (ascii "data.lastOrderSettled"))
  else
    let price ← reader.parsePriceRaw rawPrice precision (ascii "data.lastOrderSettled.price")
    .ok ⟨id, parseOrderKind kind, ⟨marketId⟩, parseContractOutcome outcome, price, parseBookSide side⟩

def convertSettled (wire : Option WireLastOrderSettled) (marketId : MarketId) (precision : BitVec 8)
    (limits : BookDecodeLimits) : Result (Option LastOrderSettled) :=
  match wire with
  | none => .ok none
  | some wire => do
    let last ← reader.convertLastOrder wire precision limits
    if last.marketId ≠ marketId then
      fail .invalidOrderbook "last settled order belongs to another market" "data.lastOrderSettled.marketId"
    else .ok (some last)

/-- Pending settlements are a decimal or an object with levels. -/
def convertPending (wire : Option RawJson) (precision : BitVec 8) (limits : BookDecodeLimits) :
    Result (Option FixedDecimal × Option PendingSettlementLevels) :=
  match wire with
  | none => .ok (none, none)
  | some raw =>
    match reader.parseDecimalRaw raw (ascii "data.settlementsPending") with
    | .ok pending => .ok (some pending, none)
    | .error _ =>
      match reader.pending raw with
      | some ⟨some asks, some bids⟩ => do
        let asks ← reader.convertLevels asks precision limits true (ascii "data.settlementsPending.asks")
        let bids ← reader.convertLevels bids precision limits false (ascii "data.settlementsPending.bids")
        .ok (none, some ⟨bids, asks⟩)
      | _ =>
        .error (invalid "pending settlements must be a decimal or level object" (ascii "data.settlementsPending"))

def crossed (bids asks : List PriceLevel) : Bool :=
  match bids.head?, asks.head? with
  | some bid, some ask => decide (bid.price.ticks ≥ ask.price.ticks)
  | _, _ => false

def convertOrderbook (wire : WireOrderbook) (precision : BitVec 8) (limits : BookDecodeLimits) : Result Orderbook := do
  let marketId ← required wire.marketId (ascii "data.marketId")
  let timestamp ← required wire.updateTimestampMs (ascii "data.updateTimestampMs")
  let asks ← required wire.asks (ascii "data.asks")
  let bids ← required wire.bids (ascii "data.bids")
  if timestamp ≤ 0 then .error (invalid "book timestamp must be positive" (ascii "data.updateTimestampMs"))
  else
    let asks ← reader.convertLevels asks precision limits true (ascii "data.asks")
    let bids ← reader.convertLevels bids precision limits false (ascii "data.bids")
    if crossed bids asks then fail .invalidOrderbook "best bid must be below best ask" "data"
    else
      let last ← reader.convertSettled wire.lastOrderSettled ⟨marketId⟩ precision limits
      let pending ← reader.convertPending wire.settlementsPending precision limits
      .ok
        { marketId := ⟨marketId⟩, updateTimestampMs := timestamp, decimalPrecision := precision
          yesBids := bids, yesAsks := asks, orderCount := wire.orderCount, lastOrderSettled := last
          settlementsPending := pending.1, settlementLevelsPending := pending.2 }

def parseWire {α : Type} (read : Bytes → Except Bytes α) (json : Bytes) (limits : BookDecodeLimits) : Result α :=
  if json.length > limits.maxBodyBytes then fail .bodyTooLarge "JSON body exceeds configured limit" ""
  else
    match read json with
    | .error text => .error ⟨.malformedJson, text, [], 0, 0⟩
    | .ok wire => .ok wire

def decodeOrderbookResponse (json : Bytes) (precision : BitVec 8) (limits : BookDecodeLimits) : Result Orderbook :=
  if precision.toNat > FixedDecimal.maxScale then
    fail .unsupportedPrecision "book precision exceeds 18 digits" "decimalPrecision"
  else do
    let response ← parseWire reader.response json limits
    match response.success with
    | none => .error (missing (ascii "success"))
    | some false => fail .venueRejected "Predict.fun returned success=false" "success"
    | some true =>
      match response.data with
      | none => .error (missing (ascii "data"))
      | some wire => reader.convertOrderbook wire precision limits

def decodeOrderbookPayload (json : Bytes) (precision : BitVec 8) (limits : BookDecodeLimits) : Result Orderbook :=
  if precision.toNat > FixedDecimal.maxScale then
    fail .unsupportedPrecision "book precision exceeds 18 digits" "decimalPrecision"
  else do
    let wire ← parseWire reader.book json limits
    reader.convertOrderbook wire precision limits

end BookReader

end PredictFun.Codec
