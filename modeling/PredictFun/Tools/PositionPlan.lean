import PredictFun.Types.Chain
import PredictFun.Codec.Integers

namespace PredictFun.Tools

open Base Codec

inductive TestnetPositionOperation
  | split
  | merge
  | redeem
  | convert
  deriving DecidableEq

structure TestnetPositionPlan where
  operation : Option TestnetPositionOperation := none
  conditionId : Option Bytes32 := none
  negRiskOnChainId : Option Bytes32 := none
  amount : Option Uint256 := none
  indexSet : Option Uint256 := none
  tokenIds : List Uint256 := []
  isNegRisk : Bool := false
  isYieldBearing : Bool := false
  deriving DecidableEq

def atLeast (available required : Uint256) : Bool :=
  if available.text.length ≠ required.text.length then decide (available.text.length > required.text.length)
  else decide (required.text ≤ available.text)

def positionApprovalSatisfiesPlan (plan : TestnetPositionPlan) (approval : ApprovalCheck) : Bool :=
  approval.satisfied ||
    decide (approval.step.kind = .erc20Allowance) &&
      match plan.amount, approval.allowance with
      | some amount, some allowance => atLeast allowance amount
      | _, _ => false

def positionApprovalsSatisfyPlan (plan : TestnetPositionPlan) (approvals : List ApprovalCheck) : Bool :=
  approvals.all (positionApprovalSatisfiesPlan plan)

theorem atLeast_iff (available required : Uint256) :
    atLeast available required = true ↔ required.toNat ≤ available.toNat := by
  have hlt := available.numberText.value_lt_iff required.numberText
  rw [← not_lt, Uint256.toNat, Uint256.toNat, hlt, Shortlex, atLeast, not_or, not_and]
  split_ifs with hl
  · rw [decide_eq_true_iff]
    omega
  · rw [not_not] at hl
    rw [decide_eq_true_iff]
    exact ⟨fun h => ⟨by omega, fun _ => List.not_lt.mpr h⟩, fun h => List.not_lt.mp (h.2 hl)⟩

theorem positionApprovalSatisfiesPlan_iff (plan : TestnetPositionPlan) (approval : ApprovalCheck) :
    positionApprovalSatisfiesPlan plan approval = true ↔
      approval.satisfied = true ∨ approval.step.kind = .erc20Allowance ∧
        ∃ amount allowance, plan.amount = some amount ∧ approval.allowance = some allowance ∧
          amount.toNat ≤ allowance.toNat := by
  rw [positionApprovalSatisfiesPlan, Bool.or_eq_true, Bool.and_eq_true, decide_eq_true_iff]
  apply or_congr Iff.rfl
  apply and_congr Iff.rfl
  cases plan.amount with
  | none => simp
  | some amount =>
    cases approval.allowance with
    | none => simp
    | some allowance => simp [atLeast_iff]

theorem uint256_text_is_number :
    (∀ text, (∃ value, Uint256.parse text = .ok value) ↔
      (text ≠ [] ∧ ∀ c ∈ text, isDigit c = true) ∧ Positional.value digitValue 10 text < 2 ^ 256) ∧
    (∀ text value, Uint256.parse text = .ok value → value.toNat = Positional.value digitValue 10 text) ∧
    (∀ value : Uint256, NumberText value.text ∧
      ∀ other, NumberText other → Positional.value digitValue 10 other = value.toNat → other = value.text) ∧
    (∀ a b : Uint256, a.text = b.text ↔ a.toNat = b.toNat) ∧
    (∀ a b, NumberText a → NumberText b →
      (Shortlex a b ↔ Positional.value digitValue 10 a < Positional.value digitValue 10 b)) ∧
    (∀ text, NumberText text → (Uint256.exceeds text = true ↔ 2 ^ 256 ≤ Positional.value digitValue 10 text)) ∧
    ∀ available required, atLeast available required = true ↔ required.toNat ≤ available.toNat := by
  refine ⟨fun text => ?_, ?_, fun value => ⟨value.numberText, ?_⟩, fun a b => ?_,
    fun a b ha hb => (ha.value_lt_iff hb).symm, fun text => Uint256.exceeds_iff, atLeast_iff⟩
  · rw [← Uint256.digits_iff]
    constructor
    · rintro ⟨value, h⟩
      have hd := Uint256.digits_of_parse h
      exact ⟨hd, (Uint256.parse_eq_ok hd).mp h ▸ value.toNat_lt⟩
    · rintro ⟨hd, hlt⟩
      obtain ⟨value, -, hvalue⟩ := Uint256.parse_decimalText hlt
      exact ⟨value, (Uint256.parse_eq_ok hd).mpr hvalue⟩
  · intro text value h
    exact (Uint256.parse_eq_ok (Uint256.digits_of_parse h)).mp h
  · intro other hother h
    exact hother.value_injective value.numberText h
  · exact ⟨fun h => congrArg (Positional.value digitValue 10) h, fun h => congrArg Uint256.text (Uint256.toNat_injective h)⟩

theorem parse_leading_zeros : ∃ value, Uint256.parse (ascii "0042") = .ok value ∧ value.toNat = 42 ∧ value.text = ascii "42" := by
  obtain ⟨value, h⟩ := (uint256_text_is_number.1 (ascii "0042")).mpr ⟨⟨by decide, List.all_eq_true.mp (by decide)⟩, by decide⟩
  have hnumber : value.toNat = 42 := (uint256_text_is_number.2.1 _ value h).trans (by decide)
  have hother : NumberText (ascii "42") := ⟨by decide, List.all_eq_true.mp (by decide), fun h => absurd h (by decide)⟩
  exact ⟨value, h, hnumber, ((uint256_text_is_number.2.2.1 value).2 _ hother (hnumber ▸ by decide)).symm⟩

end PredictFun.Tools
