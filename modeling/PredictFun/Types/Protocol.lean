import PredictFun.Types.Chain

namespace PredictFun

structure ProtocolAddresses where
  yieldBearingCtfExchange : EvmAddress
  yieldBearingNegRiskCtfExchange : EvmAddress
  yieldBearingNegRiskAdapter : EvmAddress
  yieldBearingConditionalTokens : EvmAddress
  yieldBearingNegRiskConditionalTokens : EvmAddress
  ctfExchange : EvmAddress
  negRiskCtfExchange : EvmAddress
  negRiskAdapter : EvmAddress
  conditionalTokens : EvmAddress
  negRiskConditionalTokens : EvmAddress
  usdt : EvmAddress
  kernel : EvmAddress
  ecdsaValidator : EvmAddress

def makeAddresses (yieldExchange yieldNegExchange yieldNegAdapter yieldTokens yieldNegTokens exchange negExchange negAdapter
    tokens negTokens usdt kernel validator : String) : Result ProtocolAddresses :=
  let addresses : Result ProtocolAddresses := do
    let a ← EvmAddress.parse (ascii yieldExchange)
    let b ← EvmAddress.parse (ascii yieldNegExchange)
    let c ← EvmAddress.parse (ascii yieldNegAdapter)
    let d ← EvmAddress.parse (ascii yieldTokens)
    let e ← EvmAddress.parse (ascii yieldNegTokens)
    let f ← EvmAddress.parse (ascii exchange)
    let g ← EvmAddress.parse (ascii negExchange)
    let h ← EvmAddress.parse (ascii negAdapter)
    let i ← EvmAddress.parse (ascii tokens)
    let j ← EvmAddress.parse (ascii negTokens)
    let k ← EvmAddress.parse (ascii usdt)
    let l ← EvmAddress.parse (ascii kernel)
    let m ← EvmAddress.parse (ascii validator)
    return ⟨a, b, c, d, e, f, g, h, i, j, k, l, m⟩
  match addresses with
  | .error _ => fail .protocolError "embedded Predict contract registry is invalid" ""
  | .ok addresses => .ok addresses

def protocolAddresses : ChainId → Result ProtocolAddresses
  | .bnbMainnet =>
    makeAddresses
      "0x6bEb5a40C032AFc305961162d8204CDA16DECFa5"
      "0x8A289d458f5a134bA40015085A8F50Ffb681B41d"
      "0x41dCe1A4B8FB5e6327701750aF6231B7CD0B2A40"
      "0x9400F8Ad57e9e0F352345935d6D3175975eb1d9F"
      "0xF64b0b318AAf83BD9071110af24D24445719A07F"
      "0x8BC070BEdAB741406F4B1Eb65A72bee27894B689"
      "0x365fb81bd4A24D6303cd2F19c349dE6894D8d58A"
      "0xc3Cf7c252f65E0d8D88537dF96569AE94a7F1A6E"
      "0x22DA1810B194ca018378464a58f6Ac2B10C9d244"
      "0x22DA1810B194ca018378464a58f6Ac2B10C9d244"
      "0x55d398326f99059fF775485246999027B3197955"
      "0xBAC849bB641841b44E965fB01A4Bf5F074f84b4D"
      "0x845ADb2C711129d4f3966735eD98a9F09fC4cE57"
  | .bnbTestnet =>
    makeAddresses
      "0x8a6B4Fa700A1e310b106E7a48bAFa29111f66e89"
      "0x95D5113bc50eD201e319101bbca3e0E250662fCC"
      "0xb74aea04bdeBE912Aa425bC9173F9668e6f11F99"
      "0x38BF1cbD66d174bb5F3037d7068E708861D68D7f"
      "0x26e865CbaAe99b62fbF9D18B55c25B5E079A93D5"
      "0x2A6413639BD3d73a20ed8C95F634Ce198ABbd2d7"
      "0xd690b2bd441bE36431F6F6639D7Ad351e7B29680"
      "0x285c1B939380B130D7EBd09467b93faD4BA623Ed"
      "0x2827AAef52D71910E8FBad2FfeBC1B6C2DA37743"
      "0x2827AAef52D71910E8FBad2FfeBC1B6C2DA37743"
      "0xB32171ecD878607FFc4F8FC0bCcE6852BB3149E0"
      "0xBAC849bB641841b44E965fB01A4Bf5F074f84b4D"
      "0x845ADb2C711129d4f3966735eD98a9F09fC4cE57"

structure MarketContractKind where
  isNegRisk : Bool := false
  isYieldBearing : Bool := false

def exchangeAddress (addresses : ProtocolAddresses) (kind : MarketContractKind) : EvmAddress :=
  if kind.isYieldBearing then
    if kind.isNegRisk then addresses.yieldBearingNegRiskCtfExchange else addresses.yieldBearingCtfExchange
  else if kind.isNegRisk then addresses.negRiskCtfExchange else addresses.ctfExchange

theorem protocolAddresses_ok (chain : ChainId) : ∃ addresses, protocolAddresses chain = .ok addresses := by
  have hok : (protocolAddresses chain).isOk = true := by cases chain <;> decide +kernel
  cases h : protocolAddresses chain with
  | error error =>
    rw [h] at hok
    cases hok
  | ok addresses => exact ⟨addresses, rfl⟩

end PredictFun
