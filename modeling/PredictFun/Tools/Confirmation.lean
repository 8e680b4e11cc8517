import PredictFun.Base.UrlQuery
import PredictFun.Chain.Positions
import PredictFun.Tools.PositionPlan

namespace PredictFun.Tools

open Base Codec Chain

inductive TestnetAcceptanceMode
  | probe
  | approve
  | positionProbe
  | positionExecute
  deriving DecidableEq

structure TestnetAcceptanceOptions where
  mode : TestnetAcceptanceMode := .probe
  owner : EvmAddress
  position : Option TestnetPositionPlan := none
  evidencePath : Bytes := []
  confirmation : Bytes := []
  execute : Bool := false

def TestnetPositionOperation.code : TestnetPositionOperation → Bytes
  | .split => ascii "split"
  | .merge => ascii "merge"
  | .redeem => ascii "redeem"
  | .convert => ascii "convert"

-- there is no result where the code dereferences an optional that is empty

def testnetPositionOperationCode (plan : TestnetPositionPlan) : Option Bytes := do
  let operation ← plan.operation
  return operation.code ++
    (if operation = .convert ∨ plan.isNegRisk then ascii ":neg-risk" else ascii ":standard") ++
    (if plan.isYieldBearing then ascii ":yield" else ascii ":regular")

def planIdentifier (operation : TestnetPositionOperation) (plan : TestnetPositionPlan) : Option Bytes32 :=
  if operation = .convert then plan.negRiskOnChainId else plan.conditionId

def testnetPositionConfirmation (owner : EvmAddress) (plan : TestnetPositionPlan) : Option Bytes := do
  let operation ← plan.operation
  let identifier ← planIdentifier operation plan
  let code ← testnetPositionOperationCode plan
  let tokens := plan.tokenIds.foldl
    (fun tokens token => (if tokens ≠ [] then tokens ++ [byte ','] else tokens) ++ token.text) []
  return ascii "EXECUTE PREDICT BNB TESTNET 97 " ++ owner.text ++ ascii " " ++ code ++ ascii " " ++
    encodeHex identifier.bytes ++ ascii " " ++ (plan.amount.map Uint256.text).getD (ascii "all") ++ ascii " " ++
    (plan.indexSet.map Uint256.text).getD (ascii "none") ++ ascii " " ++ tokens

def repeated : List Uint256 → Bool
  | [] => false
  | left :: rest => rest.any (fun right => left.text = right.text) || repeated rest

def validateTestnetPositionPlan (plan : TestnetPositionPlan) : Result Bool :=
  match plan.operation with
  | none => fail .invalidArgument "position mode requires --operation" "operation"
  | some operation =>
    if operation = .convert ∧ plan.negRiskOnChainId = none then
      fail .invalidArgument "convert requires --neg-risk-on-chain-id" "neg_risk_on_chain_id"
    else if operation = .convert ∧ plan.indexSet.all Uint256.isZero then
      fail .invalidArgument "convert requires a positive --index-set" "index_set"
    else if operation ≠ .convert ∧ plan.conditionId = none then
      fail .invalidArgument "operation requires --condition-id" "condition_id"
    else if operation ≠ .redeem ∧ plan.amount.all Uint256.isZero then
      fail .invalidArgument "operation requires a positive --amount" "amount"
    else if operation = .redeem ∧ plan.indexSet.all (fun indexSet => indexSet.text ≠ ascii "1" ∧ indexSet.text ≠ ascii "2") then
      fail .invalidArgument "redeem requires --index-set 1 or 2" "index_set"
    else if operation = .redeem ∧ plan.isNegRisk ∧ plan.amount.all Uint256.isZero then
      fail .invalidArgument "negative-risk redeem requires a positive --amount" "amount"
    else
      let paired := operation = .split ∨ operation = .merge
      if plan.tokenIds.length < if paired then 2 else 1 then
        fail .invalidArgument "operation requires token ids for balance evidence" "token_id"
      else if paired ∧ plan.tokenIds.length ≠ 2 then
        fail .invalidArgument "split and merge require exactly two token ids" "token_id"
      else if operation = .redeem ∧ plan.tokenIds.length > 2 then
        fail .invalidArgument "redeem accepts at most two token ids" "token_id"
      else if plan.tokenIds.any Uint256.isZero then fail .invalidArgument "token id must be positive" "token_id"
      else if repeated plan.tokenIds then fail .invalidArgument "token ids must be unique" "token_id"
      else .ok true

def validateTestnetPositionWriteGate (options : TestnetAcceptanceOptions) : Option (Result Bool) :=
  match options.mode, options.position with
  | .positionExecute, some plan =>
    if options.execute = false then some (fail .invalidArgument "position-execute requires --execute" "execute")
    else if options.evidencePath = [] then
      some (fail .invalidArgument "position-execute requires --evidence" "evidence")
    else do
      let expected ← testnetPositionConfirmation options.owner plan
      if options.confirmation ≠ expected then
        return fail .invalidArgument "confirmation phrase does not match the exact operation plan" "confirm"
      else return .ok true
  | _, _ => some (fail .invalidArgument "position write gate requires position-execute mode" "mode")

def positionTransaction (keccak : Bytes → Result Hash32) (plan : TestnetPositionPlan) :
    Option (Result UnsignedTransaction) := do
  match ← plan.operation with
  | .split =>
    return splitTransaction keccak .bnbTestnet
      ⟨← plan.conditionId, ← plan.amount, plan.isNegRisk, plan.isYieldBearing⟩ {}
  | .merge =>
    return mergeTransaction keccak .bnbTestnet
      ⟨← plan.conditionId, ← plan.amount, plan.isNegRisk, plan.isYieldBearing⟩ {}
  | .redeem =>
    let indexSet ← plan.indexSet
    return redeemTransaction keccak .bnbTestnet
      ⟨← plan.conditionId, if indexSet.text = ascii "1" then 1 else 2, plan.isNegRisk, plan.isYieldBearing, plan.amount⟩ {}
  | .convert =>
    return convertTransaction keccak .bnbTestnet
      ⟨← plan.negRiskOnChainId, ← plan.indexSet, ← plan.amount, plan.isYieldBearing⟩ {}

section

variable {owner owner' : EvmAddress} {plan plan' : TestnetPositionPlan} {operation operation' : TestnetPositionOperation}
  {identifier identifier' : Bytes32}

structure Accepted (plan : TestnetPositionPlan) (operation : TestnetPositionOperation) (identifier : Bytes32) : Prop where
  hasOperation : plan.operation = some operation
  hasIdentifier : planIdentifier operation plan = some identifier
  hasAmount : operation ≠ .redeem ∨ plan.isNegRisk = true → ∃ amount, plan.amount = some amount ∧ amount.isZero = false
  hasIndexSet : operation = .redeem ∨ operation = .convert →
    ∃ indexSet, plan.indexSet = some indexSet ∧ indexSet.isZero = false
  hasTokenIds : plan.tokenIds ≠ []

theorem exists_of_not_all {value : Option Uint256} {p : Uint256 → Bool} (h : ¬ value.all p = true) :
    ∃ number, value = some number ∧ p number = false := by
  cases value with
  | none => exact absurd rfl h
  | some number => exact ⟨number, rfl, Bool.eq_false_iff.mpr h⟩

theorem accepted_of_valid (h : validateTestnetPositionPlan plan = .ok true) :
    ∃ operation identifier, Accepted plan operation identifier := by
  unfold validateTestnetPositionPlan at h
  cases ho : plan.operation with
  | none =>
    rw [ho] at h
    cases h
  | some operation =>
    rw [ho] at h
    simp only [Result.ite_fail_eq_ok, not_and] at h
    obtain ⟨hnegRisk, hconvert, hcondition, hamount, hredeem, hriskAmount, htokens, -⟩ := h
    have hidentifier : planIdentifier operation plan ≠ none := by
      rw [planIdentifier]
      split_ifs with hc
      · exact hnegRisk hc
      · exact hcondition hc
    obtain ⟨identifier, hid⟩ := Option.ne_none_iff_exists'.mp hidentifier
    refine ⟨operation, identifier, ho, hid, fun hop => exists_of_not_all ?_, fun hop => ?_, fun hnil => ?_⟩
    · by_cases hne : operation = .redeem
      · exact hriskAmount hne (hop.resolve_left (not_not.mpr hne))
      · exact hamount hne
    · rcases hop with hop | hop
      · obtain ⟨indexSet, hindex, hone⟩ := exists_of_not_all (hredeem hop)
        refine ⟨indexSet, hindex, Bool.eq_false_iff.mpr fun hzero => ?_⟩
        rw [of_decide_eq_true hzero] at hone
        exact absurd hone (by decide)
      · exact exists_of_not_all (hconvert hop)
    · rw [hnil, List.length_nil] at htokens
      split_ifs at htokens <;> omega

def riskCode (operation : TestnetPositionOperation) (plan : TestnetPositionPlan) : Bytes :=
  if operation = .convert ∨ plan.isNegRisk then ascii "neg-risk" else ascii "standard"

def yieldCode (plan : TestnetPositionPlan) : Bytes := if plan.isYieldBearing then ascii "yield" else ascii "regular"

theorem operationCode_eq (h : plan.operation = some operation) : testnetPositionOperationCode plan =
    some ([byte ':'].intercalate [operation.code, riskCode operation plan, yieldCode plan]) := by
  rw [testnetPositionOperationCode, h, riskCode, yieldCode]
  change some (operation.code ++ _ ++ _) = _
  split_ifs <;> simp [ascii]

theorem foldl_tokens (tokens : List Uint256) :
    tokens.foldl (fun text token => (if text ≠ [] then text ++ [byte ','] else text) ++ token.text) [] =
      [byte ','].intercalate (tokens.map Uint256.text) := by
  have hfold (tokens : List Uint256) (text : Bytes) (h : text ≠ []) :
      tokens.foldl (fun text token => (if text ≠ [] then text ++ [byte ','] else text) ++ token.text) text =
        text ++ (tokens.map Uint256.text).flatMap (byte ',' :: ·) := by
    induction tokens generalizing text with
    | nil => simp
    | cons token tokens ih =>
      rw [List.foldl_cons, if_pos h, ih _ (by simp), List.map_cons, List.flatMap_cons]
      simp only [List.append_assoc, List.cons_append, List.nil_append]
  cases tokens with
  | nil => rfl
  | cons token tokens =>
    rw [List.foldl_cons, List.map_cons, Query.intercalate_cons]
    exact hfold tokens token.text token.numberText.1

def phraseFields (owner : EvmAddress) (plan : TestnetPositionPlan) (operation : TestnetPositionOperation)
    (identifier : Bytes32) : List Bytes :=
  [owner.text, [byte ':'].intercalate [operation.code, riskCode operation plan, yieldCode plan],
    encodeHex identifier.bytes, (plan.amount.map Uint256.text).getD (ascii "all"),
    (plan.indexSet.map Uint256.text).getD (ascii "none"), [byte ','].intercalate (plan.tokenIds.map Uint256.text)]

theorem confirmation_eq (owner : EvmAddress) (h : Accepted plan operation identifier) :
    testnetPositionConfirmation owner plan = some (ascii "EXECUTE PREDICT BNB TESTNET 97 " ++
      [byte ' '].intercalate (phraseFields owner plan operation identifier)) := by
  have hspace : ascii " " = [byte ' '] := rfl
  rw [testnetPositionConfirmation, h.hasOperation, Option.bind_eq_bind, Option.bind_some, h.hasIdentifier,
    Option.bind_eq_bind, Option.bind_some, operationCode_eq h.hasOperation, Option.bind_eq_bind, Option.bind_some,
    foldl_tokens, phraseFields, hspace]
  generalize [byte ':'].intercalate [operation.code, riskCode operation plan, yieldCode plan] = code
  rw [Query.intercalate_cons]
  simp only [List.flatMap_cons, List.flatMap_nil, List.append_nil, List.append_assoc, List.cons_append, List.nil_append]
  rfl

theorem notMem_text {mark : Byte} (h : isDigit mark = false) (value : Uint256) : mark ∉ value.text := by
  intro hm
  have hdigit := value.isDigit_text mark hm
  rw [h] at hdigit
  cases hdigit

theorem space_notMem_hexText (bytes : Bytes) : byte ' ' ∉ hexText bytes := by
  have hdigit : ∀ d < 16, byte ' ' ≠ hexDigit d := by decide
  intro hm
  obtain ⟨b, -, hb⟩ := List.mem_flatMap.mp hm
  have hlt := b.isLt
  simp only [List.mem_cons, List.not_mem_nil, or_false] at hb
  rcases hb with hb | hb
  · exact hdigit _ (by omega) hb
  · exact hdigit _ (by omega) hb

theorem notMem_intercalate {mark separator : Byte} (hne : mark ≠ separator) {parts : List Bytes}
    (h : ∀ part ∈ parts, mark ∉ part) : mark ∉ [separator].intercalate parts := by
  cases parts with
  | nil => simp
  | cons part parts =>
    rw [Query.intercalate_cons, List.mem_append, List.mem_flatMap, not_or]
    refine ⟨h part List.mem_cons_self, ?_⟩
    rintro ⟨other, ho, hm⟩
    rcases List.mem_cons.mp hm with hm | hm
    · exact hne hm
    · exact h other (List.mem_cons_of_mem _ ho) hm

theorem notMem_getD {mark : Byte} (h : isDigit mark = false) {word : Bytes} (hw : mark ∉ word) (value : Option Uint256) :
    mark ∉ (value.map Uint256.text).getD word := by
  cases value with
  | none => exact hw
  | some value => exact notMem_text h value

theorem space_notMem_fields : ∀ field ∈ phraseFields owner plan operation identifier, byte ' ' ∉ field := by
  have hcode : byte ' ' ∉ operation.code := by cases operation <;> decide
  have hrisk : byte ' ' ∉ riskCode operation plan := by
    rw [riskCode]
    split_ifs <;> decide
  have hyield : byte ' ' ∉ yieldCode plan := by
    rw [yieldCode]
    split_ifs <;> decide
  simp only [phraseFields, List.mem_cons, List.not_mem_nil, or_false, forall_eq_or_imp, forall_eq]
  refine ⟨?_, notMem_intercalate (by decide) (by simp [hcode, hrisk, hyield]), ?_, notMem_getD (by decide) (by decide) _,
    notMem_getD (by decide) (by decide) _, notMem_intercalate (by decide) ?_⟩
  · exact fun hm => (List.mem_append.mp hm).elim (by decide) (space_notMem_hexText _)
  · exact fun hm => (List.mem_append.mp hm).elim (by decide) (space_notMem_hexText _)
  · intro part hpart
    obtain ⟨token, -, rfl⟩ := List.mem_map.mp hpart
    exact notMem_text (by decide) token

theorem code_injective (h : operation.code = operation'.code) : operation = operation' := by
  cases operation <;> cases operation' <;> first | rfl | exact absurd h (by decide)

theorem riskCode_injective (hne : operation ≠ .convert) (h : riskCode operation plan = riskCode operation plan') :
    plan.isNegRisk = plan'.isNegRisk := by
  simp only [riskCode, hne, false_or] at h
  cases hleft : plan.isNegRisk <;> cases hright : plan'.isNegRisk <;> rw [hleft, hright] at h
  · exact absurd h (by decide)
  · exact absurd h (by decide)

theorem yieldCode_injective (h : yieldCode plan = yieldCode plan') : plan.isYieldBearing = plan'.isYieldBearing := by
  rw [yieldCode, yieldCode] at h
  cases hleft : plan.isYieldBearing <;> cases hright : plan'.isYieldBearing <;> rw [hleft, hright] at h
  · exact absurd h (by decide)
  · exact absurd h (by decide)

theorem colon_notMem : ∀ part ∈ [operation.code, riskCode operation plan, yieldCode plan], byte ':' ∉ part := by
  simp only [List.mem_cons, List.not_mem_nil, or_false, forall_eq_or_imp, forall_eq]
  refine ⟨by cases operation <;> decide, ?_, ?_⟩
  · rw [riskCode]
    split_ifs <;> decide
  · rw [yieldCode]
    split_ifs <;> decide

theorem getD_text_injective {word : Bytes} (hw : ∃ c ∈ word, isDigit c = false) {a b : Option Uint256}
    (h : (a.map Uint256.text).getD word = (b.map Uint256.text).getD word) : a = b := by
  obtain ⟨c, hc, hdigit⟩ := hw
  cases a with
  | none =>
    cases b with
    | none => rfl
    | some b =>
      rw [Option.map_none, Option.getD_none] at h
      rw [h] at hc
      exact absurd hc (notMem_text hdigit b)
  | some a =>
    cases b with
    | none =>
      rw [Option.map_none, Option.getD_none] at h
      rw [← h] at hc
      exact absurd hc (notMem_text hdigit a)
    | some b => exact congrArg some (Uint256.text_injective h)

theorem encodeHex_injective {a b : Bytes32} (h : encodeHex a.bytes = encodeHex b.bytes) : a = b := by
  have hbytes : (.ok a.bytes : Result Bytes) = .ok b.bytes := by
    rw [← decodeHex_encodeHex a.bytes, h, decodeHex_encodeHex]
  cases a
  cases b
  cases hbytes
  rfl

structure SamePlan (plan plan' : TestnetPositionPlan) (operation operation' : TestnetPositionOperation)
    (identifier identifier' : Bytes32) : Prop where
  sameOperation : operation = operation'
  sameIdentifier : identifier = identifier'
  amount : plan.amount = plan'.amount
  indexSet : plan.indexSet = plan'.indexSet
  tokenIds : plan.tokenIds = plan'.tokenIds
  isNegRisk : operation ≠ .convert → plan.isNegRisk = plan'.isNegRisk
  isYieldBearing : plan.isYieldBearing = plan'.isYieldBearing

theorem same_of_phrase (h : Accepted plan operation identifier) (h' : Accepted plan' operation' identifier')
    (hphrase : testnetPositionConfirmation owner plan = testnetPositionConfirmation owner' plan') :
    owner = owner' ∧ SamePlan plan plan' operation operation' identifier identifier' := by
  rw [confirmation_eq owner h, confirmation_eq owner' h', Option.some.injEq] at hphrase
  have hfields := Query.intercalate_injective space_notMem_fields space_notMem_fields (by simp [phraseFields])
    (by simp [phraseFields]) (List.append_cancel_left hphrase)
  simp only [phraseFields, List.cons.injEq, and_true] at hfields
  obtain ⟨howner, hcode, hidentifier, hamount, hindex, htokens⟩ := hfields
  have hcodes := Query.intercalate_injective colon_notMem colon_notMem (by simp) (by simp) hcode
  simp only [List.cons.injEq, and_true] at hcodes
  obtain ⟨hoperation, hrisk, hyield⟩ := hcodes
  obtain rfl := code_injective hoperation
  have hcomma (plan : TestnetPositionPlan) : ∀ part ∈ plan.tokenIds.map Uint256.text, byte ',' ∉ part := by
    intro part hpart
    obtain ⟨token, -, rfl⟩ := List.mem_map.mp hpart
    exact notMem_text (by decide) token
  have htexts := Query.intercalate_injective (hcomma plan) (hcomma plan') (by simp [h.hasTokenIds])
    (by simp [h'.hasTokenIds]) htokens
  exact ⟨EvmAddress.text_injective howner, rfl, encodeHex_injective hidentifier,
    getD_text_injective ⟨byte 'a', by decide, by decide⟩ hamount,
    getD_text_injective ⟨byte 'n', by decide, by decide⟩ hindex,
    List.map_injective_iff.mpr Uint256.text_injective htexts, fun hne => riskCode_injective hne hrisk,
    yieldCode_injective hyield⟩

-- the transaction reads the identifier the phrase prints, the sign of the risk only outside of convert, and the amount and
-- the index set where the plan has them

theorem positionTransaction_eq {keccak : Bytes → Result Hash32} (h : Accepted plan operation identifier)
    (h' : Accepted plan' operation' identifier') (hsame : SamePlan plan plan' operation operation' identifier identifier') :
    positionTransaction keccak plan = positionTransaction keccak plan' := by
  have hid := h.hasIdentifier
  have hid' := h'.hasIdentifier
  obtain ⟨rfl, rfl, hamount, hindex, -, hrisk, hyield⟩ := hsame
  rw [positionTransaction, positionTransaction, h.hasOperation, h'.hasOperation, hamount, hindex, hyield]
  by_cases hconvert : operation = .convert
  · rw [planIdentifier, if_pos hconvert] at hid hid'
    simp only [hconvert, hid, hid', Option.bind_eq_bind, Option.bind_some]
  · rw [planIdentifier, if_neg hconvert] at hid hid'
    rw [hid, hid', hrisk hconvert]
    cases operation with
    | split | merge | redeem => simp only [Option.bind_eq_bind, Option.bind_some]
    | convert => exact absurd rfl hconvert

/-- The plan's own check leaves the builder nothing to refuse but an identifier of zero bytes. -/
theorem positionTransaction_some (keccak : Bytes → Result Hash32) (h : Accepted plan operation identifier) :
    ∃ outcome, positionTransaction keccak plan = some outcome ∧ ((∀ bytes, ∃ hash, keccak bytes = .ok hash) →
      zero identifier = false → ∃ built, outcome = .ok built ∧ built.value = Uint256.zero) := by
  have hid := h.hasIdentifier
  obtain ⟨addresses, haddresses⟩ := protocolAddresses_ok .bnbTestnet
  rw [positionTransaction, h.hasOperation]
  cases operation with
  | split | merge =>
    obtain ⟨amount, hamount, hpositive⟩ := h.hasAmount (.inl (by decide))
    rw [planIdentifier, if_neg (by decide)] at hid
    rw [hid, hamount]
    refine ⟨_, rfl, fun hk hidentifier => pairTransaction_ok hk ?_ rfl⟩
    rw [validatePosition, hidentifier, hpositive]
    rfl
  | redeem =>
    obtain ⟨indexSet, hindex, -⟩ := h.hasIndexSet (.inl rfl)
    rw [planIdentifier, if_neg (by decide)] at hid
    rw [hid, hindex]
    refine ⟨_, rfl, fun hk hidentifier => ?_⟩
    have hset : (if indexSet.text = ascii "1" then (1 : Byte) else 2) = 1 ∨
        (if indexSet.text = ascii "1" then (1 : Byte) else 2) = 2 := by split_ifs <;> simp
    cases hrisk : plan.isNegRisk with
    | false =>
      obtain ⟨hash, hhash⟩ := hk (ascii "redeemPositions(address,bytes32,bytes32,uint256[])")
      exact (redeemTransaction_standard hidentifier hset haddresses rfl hhash rfl).exists_ok
    | true =>
      obtain ⟨hash, hhash⟩ := hk (ascii "redeemPositions(bytes32,uint256[])")
      obtain ⟨amount, hamount, hpositive⟩ := h.hasAmount (.inr hrisk)
      exact (redeemTransaction_negRisk hidentifier hset haddresses rfl hhash rfl hamount hpositive).exists_ok
  | convert =>
    obtain ⟨amount, hamount, hpositive⟩ := h.hasAmount (.inl (by decide))
    obtain ⟨indexSet, hindex, hset⟩ := h.hasIndexSet (.inr rfl)
    rw [planIdentifier, if_pos rfl] at hid
    rw [hid, hamount, hindex]
    refine ⟨_, rfl, fun hk hidentifier => ?_⟩
    obtain ⟨hash, hhash⟩ := hk (ascii "convertPositions(bytes32,uint256,uint256)")
    exact (convertTransaction_builds hidentifier hset hpositive haddresses rfl hhash).exists_ok

theorem writeGate_iff {options : TestnetAcceptanceOptions} (hplan : options.position = some plan) :
    validateTestnetPositionWriteGate options = some (.ok true) ↔
      options.mode = .positionExecute ∧ options.execute = true ∧ options.evidencePath ≠ [] ∧
        testnetPositionConfirmation options.owner plan = some options.confirmation := by
  unfold validateTestnetPositionWriteGate
  rw [hplan]
  cases hmode : options.mode with
  | probe | approve | positionProbe => exact ⟨nofun, nofun⟩
  | positionExecute =>
    dsimp only
    split_ifs with hexecute hevidence
    · exact ⟨nofun, fun h => absurd h.2.1 (by rw [hexecute]; decide)⟩
    · exact ⟨nofun, fun h => absurd hevidence h.2.2.1⟩
    · cases hexpected : testnetPositionConfirmation options.owner plan with
      | none => exact ⟨nofun, nofun⟩
      | some expected =>
        change (if options.confirmation ≠ expected then _ else _) = _ ↔ _
        by_cases hphrase : options.confirmation = expected
        · rw [if_neg (not_not.mpr hphrase), hphrase]
          simp [hexecute, hevidence]
        · rw [if_pos hphrase]
          exact ⟨nofun, fun h => absurd (Option.some.inj h.2.2.2).symm hphrase⟩

end

/-- The phrase names one owner, one list of token ids and one transaction, and the gate opens only for them. -/
theorem confirmation_binds_plan (keccak : Bytes → Result Hash32) :
    (∀ owner owner' plan plan', validateTestnetPositionPlan plan = .ok true → validateTestnetPositionPlan plan' = .ok true →
      testnetPositionConfirmation owner plan = testnetPositionConfirmation owner' plan' →
      owner = owner' ∧ plan.tokenIds = plan'.tokenIds ∧ testnetPositionConfirmation owner plan ≠ none ∧
        positionTransaction keccak plan = positionTransaction keccak plan' ∧ positionTransaction keccak plan ≠ none) ∧
    (∀ options plan owner' plan', options.position = some plan → validateTestnetPositionPlan plan = .ok true →
      validateTestnetPositionPlan plan' = .ok true → validateTestnetPositionWriteGate options = some (.ok true) →
      testnetPositionConfirmation owner' plan' = some options.confirmation →
      options.owner = owner' ∧ plan.tokenIds = plan'.tokenIds ∧
        positionTransaction keccak plan = positionTransaction keccak plan') := by
  constructor
  · intro owner owner' plan plan' hvalid hvalid' hphrase
    obtain ⟨operation, identifier, h⟩ := accepted_of_valid hvalid
    obtain ⟨operation', identifier', h'⟩ := accepted_of_valid hvalid'
    obtain ⟨howner, hsame⟩ := same_of_phrase h h' hphrase
    obtain ⟨outcome, houtcome, -⟩ := positionTransaction_some keccak h
    refine ⟨howner, hsame.tokenIds, ?_, positionTransaction_eq h h' hsame, ?_⟩
    · rw [confirmation_eq owner h]
      exact Option.some_ne_none _
    · rw [houtcome]
      exact Option.some_ne_none _
  · intro options plan owner' plan' hplan hvalid hvalid' hgate hphrase
    obtain ⟨operation, identifier, h⟩ := accepted_of_valid hvalid
    obtain ⟨operation', identifier', h'⟩ := accepted_of_valid hvalid'
    obtain ⟨howner, hsame⟩ := same_of_phrase h h' (((writeGate_iff hplan).mp hgate).2.2.2.trans hphrase.symm)
    exact ⟨howner, hsame.tokenIds, positionTransaction_eq h h' hsame⟩

def convertThree : TestnetPositionPlan :=
  { operation := some .convert
    negRiskOnChainId := some ⟨List.replicate 32 7, rfl⟩
    amount := some ⟨ascii "5", by decide, by decide, by decide⟩
    indexSet := some ⟨ascii "3", by decide, by decide, by decide⟩
    tokenIds := [.one, ⟨ascii "12", by decide, by decide, by decide⟩,
      ⟨ascii "2", by decide, by decide, by decide⟩] }

-- what a conversion does not read may differ

theorem convert_phrase_binds : ∃ owner plan' options, plan' ≠ convertThree ∧ options.position = some plan' ∧
    validateTestnetPositionWriteGate options = some (.ok true) ∧
    testnetPositionConfirmation owner convertThree = some options.confirmation ∧ options.owner = owner ∧
    positionTransaction (fun _ => .ok ⟨List.replicate 32 0, rfl⟩) convertThree =
      positionTransaction (fun _ => .ok ⟨List.replicate 32 0, rfl⟩) plan' := by
  let owner : EvmAddress := .filled 1
  let plan' := { convertThree with conditionId := some ⟨List.replicate 32 9, rfl⟩, isNegRisk := true }
  let phrase := (testnetPositionConfirmation owner convertThree).getD []
  let options : TestnetAcceptanceOptions :=
    { mode := .positionExecute, owner := owner, position := some plan', evidencePath := ascii "evidence.json"
      confirmation := phrase, execute := true }
  have hgate : validateTestnetPositionWriteGate options = some (.ok true) := (writeGate_iff rfl).mpr ⟨rfl, rfl, nofun, rfl⟩
  have hbinds := confirmation_binds_plan fun _ => .ok ⟨List.replicate 32 0, rfl⟩
  exact ⟨owner, plan', options, by decide, rfl, hgate, rfl, (hbinds.2 options plan' owner convertThree rfl rfl rfl hgate rfl).1,
    (hbinds.1 owner owner convertThree plan' rfl rfl rfl).2.2.2.1⟩

end PredictFun.Tools
