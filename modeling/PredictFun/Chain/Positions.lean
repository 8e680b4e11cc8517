import PredictFun.Chain.Approvals
import PredictFun.Chain.Calldata
import PredictFun.Types.Protocol

namespace PredictFun.Chain

open Base BigEndian Codec ContractAbi

structure PositionOperation where
  conditionId : Bytes32
  amount : Uint256
  isNegRisk : Bool := false
  isYieldBearing : Bool := false

structure RedeemOperation where
  conditionId : Bytes32
  indexSet : Byte := 1
  isNegRisk : Bool := false
  isYieldBearing : Bool := false
  amount : Option Uint256 := none

structure ConvertOperation where
  negRiskOnChainId : Bytes32
  indexSet : Uint256
  amount : Uint256
  isYieldBearing : Bool := false

def zero (value : Bytes32) : Bool := value.bytes.all (fun b => b = 0)

def conditionalTokens (addresses : ProtocolAddresses) (negRisk yield : Bool) : EvmAddress :=
  if yield then
    if negRisk then addresses.yieldBearingNegRiskConditionalTokens else addresses.yieldBearingConditionalTokens
  else if negRisk then addresses.negRiskConditionalTokens else addresses.conditionalTokens

def negAdapter (addresses : ProtocolAddresses) (yield : Bool) : EvmAddress :=
  if yield then addresses.yieldBearingNegRiskAdapter else addresses.negRiskAdapter

def transaction (toAddress : EvmAddress) (data : Result Bytes) : Result UnsignedTransaction := do
  let data ← data
  return ⟨toAddress, data, Uint256.zero⟩

def validatePosition (operation : PositionOperation) : Result Bool :=
  if zero operation.conditionId then fail .invalidArgument "condition id must not be zero" "condition_id"
  else if operation.amount.isZero then fail .invalidArgument "position amount must be greater than zero" "amount"
  else .ok true

section

variable (keccak : Bytes → Result Hash32)

/-- Split and merge differ in the functions that they call. -/
def pairTransaction (negRiskSignature signature : String) (chain : ChainId) (operation : PositionOperation)
    (route : RouteOptions) : Result UnsignedTransaction := do
  let _ ← validatePosition operation
  let addresses ← protocolAddresses chain
  let amount ← word operation.amount
  let direct ←
    if operation.isNegRisk then
      transaction (negAdapter addresses operation.isYieldBearing)
        (encodeCall keccak negRiskSignature [operation.conditionId, amount])
    else do
      let one ← Uint256.parse (decimalText 1)
      let two ← Uint256.parse (decimalText 2)
      transaction (conditionalTokens addresses false operation.isYieldBearing)
        (encodeCallWithUintArray keccak signature [addressWord addresses.usdt, zeroWord, operation.conditionId] [one, two]
          [amount])
  routeTransaction keccak direct route

def splitTransaction : ChainId → PositionOperation → RouteOptions → Result UnsignedTransaction :=
  pairTransaction keccak "splitPosition(bytes32,uint256)" "splitPosition(address,bytes32,bytes32,uint256[],uint256)"

def mergeTransaction : ChainId → PositionOperation → RouteOptions → Result UnsignedTransaction :=
  pairTransaction keccak "mergePositions(bytes32,uint256)" "mergePositions(address,bytes32,bytes32,uint256[],uint256)"

def redeemTransaction (chain : ChainId) (operation : RedeemOperation) (route : RouteOptions) :
    Result UnsignedTransaction :=
  if zero operation.conditionId then fail .invalidArgument "condition id must not be zero" "condition_id"
  else if operation.indexSet ≠ 1 ∧ operation.indexSet ≠ 2 then
    fail .invalidArgument "redeem index set must be 1 or 2" "index_set"
  else do
    let addresses ← protocolAddresses chain
    let direct ←
      if operation.isNegRisk then
        match operation.amount with
        | none => fail .invalidArgument "negative-risk redeem requires a positive amount" "amount"
        | some amount =>
          if amount.isZero then fail .invalidArgument "negative-risk redeem requires a positive amount" "amount"
          else do
            let zeroValue ← Uint256.parse (decimalText 0)
            transaction (negAdapter addresses operation.isYieldBearing)
              (encodeCallWithUintArray keccak "redeemPositions(bytes32,uint256[])" [operation.conditionId]
                [if operation.indexSet = 1 then amount else zeroValue, if operation.indexSet = 2 then amount else zeroValue]
                [])
      else do
        let indexSet ← Uint256.parse (decimalText operation.indexSet.toNat)
        transaction (conditionalTokens addresses false operation.isYieldBearing)
          (encodeCallWithUintArray keccak "redeemPositions(address,bytes32,bytes32,uint256[])"
            [addressWord addresses.usdt, zeroWord, operation.conditionId] [indexSet] [])
    routeTransaction keccak direct route

def convertTransaction (chain : ChainId) (operation : ConvertOperation) (route : RouteOptions) :
    Result UnsignedTransaction :=
  if zero operation.negRiskOnChainId then
    fail .invalidArgument "negative-risk market id must not be zero" "neg_risk_on_chain_id"
  else if operation.indexSet.isZero ∨ operation.amount.isZero then
    fail .invalidArgument "convert index set and amount must be greater than zero"
      (if operation.indexSet.isZero then "index_set" else "amount")
  else do
    let addresses ← protocolAddresses chain
    match word operation.indexSet, word operation.amount with
    | .ok index, .ok amount =>
      let direct ← transaction (negAdapter addresses operation.isYieldBearing)
        (encodeCall keccak "convertPositions(bytes32,uint256,uint256)" [operation.negRiskOnChainId, index, amount])
      routeTransaction keccak direct route
    | _, _ => fail .numericOverflow "convert values exceed their ABI types" ""

def cancelOrdersTransaction (chain : ChainId) (orders : List SignedOrder) (market : MarketContractKind)
    (route : RouteOptions) : Result (Option UnsignedTransaction) :=
  if orders = [] then .ok none
  else do
    let addresses ← protocolAddresses chain
    let data ← encodeCancelOrders keccak orders
    let routed ← routeTransaction keccak ⟨exchangeAddress addresses market, data, Uint256.zero⟩ route
    return some routed

end

def Builds {α : Type} (outcome : Result UnsignedTransaction) (target : EvmAddress) (fields : Fields α) (hash : Hash32)
    (arguments : α) : Prop :=
  ∃ built, outcome = .ok built ∧ built.toAddress = target ∧ built.value = Uint256.zero ∧
    ReadsAs fields hash (.ok built.data) arguments

variable {keccak : Bytes → Result Hash32} {hash : Hash32} {chain : ChainId} {addresses : ProtocolAddresses}
  {route : RouteOptions}

theorem routed_builds {α : Type} {outcome : Result Bytes} {target : EvmAddress} {fields : Fields α} {arguments : α}
    (hroute : route.route = .eoa) (h : ReadsAs fields hash outcome arguments) :
    Builds (transaction target outcome >>= (routeTransaction keccak · route)) target fields hash arguments := by
  obtain ⟨data, body, rfl, hdata⟩ := h
  refine ⟨⟨target, data, Uint256.zero⟩, ?_, rfl, rfl, data, body, rfl, hdata⟩
  change routeTransaction keccak ⟨target, data, Uint256.zero⟩ route = _
  rw [routeTransaction, hroute]

theorem Builds.exists_ok {α : Type} {outcome : Result UnsignedTransaction} {target : EvmAddress} {fields : Fields α}
    {arguments : α} (h : Builds outcome target fields hash arguments) :
    ∃ built, outcome = .ok built ∧ built.value = Uint256.zero := by
  obtain ⟨built, hbuilt, -, hvalue, -⟩ := h
  exact ⟨built, hbuilt, hvalue⟩

theorem words_call_read_back {signature : String} (hk : keccak (ascii signature) = .ok hash) (words : List Bytes32)
    (hs : words.length < 2 ^ 64) :
    ReadsAs (wordFields words.length) hash (encodeCall keccak signature words) (words.map Bytes32.bytes) := by
  refine readsAs_encode ?_ ⟨wordFields_valid words, ?_⟩
  · rw [encodeCall, hk]
    change _ = Except.ok (encodeHex (_ ++ ((wordFields words.length).heads _ _ ++ (wordFields words.length).tails _)))
    rw [wordFields_heads, wordFields_tails, List.append_nil]
    rfl
  · change words.length * 32 + ((wordFields words.length).tails _).length < 256 ^ 32
    rw [wordFields_tails, List.length_nil]
    omega

section

variable {negRiskSignature signature : String} {operation : PositionOperation}

theorem pairTransaction_negRisk (hvalid : validatePosition operation = .ok true)
    (haddresses : protocolAddresses chain = .ok addresses) (hk : keccak (ascii negRiskSignature) = .ok hash)
    (hroute : route.route = .eoa) (hrisk : operation.isNegRisk = true) :
    Builds (pairTransaction keccak negRiskSignature signature chain operation route)
      (negAdapter addresses operation.isYieldBearing) (wordFields 2) hash
      [operation.conditionId.bytes, fixed 32 operation.amount.toNat] := by
  rw [pairTransaction, hvalid, haddresses, word_ok, hrisk]
  exact routed_builds hroute (words_call_read_back hk [operation.conditionId, wordOf operation.amount.toNat] (by simp))

theorem pairTransaction_standard (hvalid : validatePosition operation = .ok true)
    (haddresses : protocolAddresses chain = .ok addresses) (hk : keccak (ascii signature) = .ok hash)
    (hroute : route.route = .eoa) (hrisk : operation.isNegRisk = false) :
    Builds (pairTransaction keccak negRiskSignature signature chain operation route)
      (conditionalTokens addresses false operation.isYieldBearing) (uintArrayFields 3 1) hash
      ([(addressWord addresses.usdt).bytes, zeroWord.bytes, operation.conditionId.bytes], [1, 2],
        [fixed 32 operation.amount.toNat]) := by
  obtain ⟨one, hone, hone'⟩ := Uint256.parse_decimalText (n := 1) (by decide)
  obtain ⟨two, htwo, htwo'⟩ := Uint256.parse_decimalText (n := 2) (by decide)
  have hread := uintArray_call_read_back hk [addressWord addresses.usdt, zeroWord, operation.conditionId] [one, two]
    [wordOf operation.amount.toNat] (by simp)
  have hvalues : [one, two].map Uint256.toNat = [1, 2] := by simp [hone', htwo']
  rw [hvalues] at hread
  rw [pairTransaction, hvalid, haddresses, word_ok, hrisk, hone, htwo]
  exact routed_builds hroute hread

theorem pairTransaction_ok (hk : ∀ bytes, ∃ hash, keccak bytes = .ok hash) (hvalid : validatePosition operation = .ok true)
    (hroute : route.route = .eoa) :
    ∃ built, pairTransaction keccak negRiskSignature signature chain operation route = .ok built ∧
      built.value = Uint256.zero := by
  obtain ⟨addresses, haddresses⟩ := protocolAddresses_ok chain
  cases hrisk : operation.isNegRisk with
  | false =>
    obtain ⟨hash, hhash⟩ := hk (ascii signature)
    exact (pairTransaction_standard hvalid haddresses hhash hroute hrisk).exists_ok
  | true =>
    obtain ⟨hash, hhash⟩ := hk (ascii negRiskSignature)
    exact (pairTransaction_negRisk hvalid haddresses hhash hroute hrisk).exists_ok

end

section

variable {operation : RedeemOperation} (hcondition : zero operation.conditionId = false)
  (hindex : operation.indexSet = 1 ∨ operation.indexSet = 2) (haddresses : protocolAddresses chain = .ok addresses)
  (hroute : route.route = .eoa)

include hcondition hindex haddresses hroute

theorem redeemTransaction_standard (hk : keccak (ascii "redeemPositions(address,bytes32,bytes32,uint256[])") = .ok hash)
    (hrisk : operation.isNegRisk = false) :
    Builds (redeemTransaction keccak chain operation route) (conditionalTokens addresses false operation.isYieldBearing)
      (uintArrayFields 3 0) hash
      ([(addressWord addresses.usdt).bytes, zeroWord.bytes, operation.conditionId.bytes], [operation.indexSet.toNat], []) := by
  obtain ⟨indexSet, hparse, hvalue⟩ := Uint256.parse_decimalText (n := operation.indexSet.toNat) (by omega)
  have hread := uintArray_call_read_back hk [addressWord addresses.usdt, zeroWord, operation.conditionId] [indexSet] []
    (by simp)
  have hvalues : [indexSet].map Uint256.toNat = [operation.indexSet.toNat] := by simp [hvalue]
  rw [hvalues] at hread
  rw [redeemTransaction, if_neg (by rw [hcondition]; decide), if_neg (by tauto), haddresses, hrisk, hparse]
  exact routed_builds hroute hread

theorem redeemTransaction_negRisk {amount : Uint256} (hk : keccak (ascii "redeemPositions(bytes32,uint256[])") = .ok hash)
    (hrisk : operation.isNegRisk = true) (hamount : operation.amount = some amount) (hpositive : amount.isZero = false) :
    Builds (redeemTransaction keccak chain operation route) (negAdapter addresses operation.isYieldBearing)
      (uintArrayFields 1 0) hash
      ([operation.conditionId.bytes], if operation.indexSet = 1 then [amount.toNat, 0] else [0, amount.toNat], []) := by
  obtain ⟨zeroValue, hparse, hvalue⟩ := Uint256.parse_decimalText (n := 0) (by decide)
  have hread := uintArray_call_read_back hk [operation.conditionId]
    [if operation.indexSet = 1 then amount else zeroValue, if operation.indexSet = 2 then amount else zeroValue] [] (by simp)
  have hvalues : [if operation.indexSet = 1 then amount else zeroValue,
      if operation.indexSet = 2 then amount else zeroValue].map Uint256.toNat =
      if operation.indexSet = 1 then [amount.toNat, 0] else [0, amount.toNat] := by
    rcases hindex with hindex | hindex <;> simp [hindex, hvalue]
  rw [hvalues] at hread
  rw [redeemTransaction, if_neg (by rw [hcondition]; decide), if_neg (by tauto), haddresses, hrisk, hamount, hparse]
  change Builds (if amount.isZero = true then _ else _) _ _ _ _
  rw [hpositive]
  exact routed_builds hroute hread

end

theorem convertTransaction_builds {operation : ConvertOperation} (hmarket : zero operation.negRiskOnChainId = false)
    (hindex : operation.indexSet.isZero = false) (hamount : operation.amount.isZero = false)
    (haddresses : protocolAddresses chain = .ok addresses) (hroute : route.route = .eoa)
    (hk : keccak (ascii "convertPositions(bytes32,uint256,uint256)") = .ok hash) :
    Builds (convertTransaction keccak chain operation route) (negAdapter addresses operation.isYieldBearing) (wordFields 3)
      hash [operation.negRiskOnChainId.bytes, fixed 32 operation.indexSet.toNat, fixed 32 operation.amount.toNat] := by
  have hread := words_call_read_back hk
    [operation.negRiskOnChainId, wordOf operation.indexSet.toNat, wordOf operation.amount.toNat] (by simp)
  rw [convertTransaction, hmarket, hindex, hamount, haddresses, word_ok, word_ok]
  exact routed_builds hroute hread

theorem exchangeAddress_injective (haddresses : protocolAddresses chain = .ok addresses) :
    Function.Injective (exchangeAddress addresses) := by
  have hdistinct : (protocolAddresses chain).map (fun a => decide [a.yieldBearingNegRiskCtfExchange,
      a.yieldBearingCtfExchange, a.negRiskCtfExchange, a.ctfExchange].Nodup) = .ok true := by
    cases chain <;> decide +kernel
  rw [haddresses] at hdistinct
  have hnodup := of_decide_eq_true (Except.ok.inj hdistinct)
  rintro ⟨negRisk, yield⟩ ⟨negRisk', yield'⟩ h
  cases negRisk <;> cases yield <;> cases negRisk' <;> cases yield' <;> simp_all [exchangeAddress]

/-- A cancellation is sent to the exchange that serves its kind of market and no other, and is read there as the orders. -/
theorem cancel_orders_reach_exchange (keccak : Bytes → Result Hash32) (chain : ChainId) (market : MarketContractKind)
    (orders : List SignedOrder) (hne : orders ≠ []) (hsigned : ∀ order ∈ orders, orderSignature order ≠ [])
    (hsize : cancelSize orders < 2 ^ 64) (hk : keccak (ascii cancelOrdersSignature) = .ok hash) :
    ∃ addresses built, protocolAddresses chain = .ok addresses ∧
      cancelOrdersTransaction keccak chain orders market {} = .ok (some built) ∧ built.value = Uint256.zero ∧
      (∀ other, built.toAddress = exchangeAddress addresses other ↔ other = market) ∧
      ReadsAs cancelFields hash (.ok built.data) (orders.map orderTuple) := by
  obtain ⟨addresses, haddresses⟩ := protocolAddresses_ok chain
  obtain ⟨data, body, hdata, hread⟩ := cancelOrders_call_read_back hk orders hsigned hsize
  refine ⟨addresses, ⟨exchangeAddress addresses market, data, Uint256.zero⟩, haddresses, ?_, rfl, fun other => ?_, data, body,
    rfl, hread⟩
  · rw [cancelOrdersTransaction, if_neg hne, haddresses, hdata]
    rfl
  · exact ((exchangeAddress_injective haddresses).eq_iff).trans eq_comm

theorem sample_cancellation_reaches_exchange : ∃ addresses built, protocolAddresses .bnbMainnet = .ok addresses ∧
    cancelOrdersTransaction (fun _ => .ok zeroWord) .bnbMainnet [sampleOrder] {} {} = .ok (some built) ∧
    built.toAddress = exchangeAddress addresses {} := by
  obtain ⟨addresses, built, haddresses, hbuilt, -, hto, -⟩ := cancel_orders_reach_exchange (fun _ => .ok zeroWord) .bnbMainnet {}
    [sampleOrder] (by simp) (by simpa using by decide) (by decide) rfl
  exact ⟨addresses, built, haddresses, hbuilt, (hto {}).mpr rfl⟩

end PredictFun.Chain
