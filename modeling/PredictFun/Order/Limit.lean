import PredictFun.Order.Market

namespace PredictFun.Order

open Base Codec

def LimitAmountsInput.price (input : LimitAmountsInput) : ℕ := truncateSignificant input.pricePerShareWei.toNat 3

def LimitAmountsInput.quantity (input : LimitAmountsInput) : ℕ := truncateSignificant input.quantityWei.toNat 5

def LimitAmountsInput.collateral (input : LimitAmountsInput) : ℕ := input.price * input.quantity / precision

variable {input : LimitAmountsInput} {amounts : OrderAmounts}

theorem quantity_pos (h : minimumQuantity ≤ input.quantity) : 0 < input.quantity := lt_of_lt_of_le (by decide) h

theorem collateral_exact (hprice : 10 ^ 8 ≤ input.price) (hquantity : minimumQuantity ≤ input.quantity) :
    input.collateral * precision = input.price * input.quantity := by
  have hp : 10 ^ 6 ∣ input.price := pow_dvd_truncateSignificant (hprice.trans (truncateSignificant_le _ _))
  have hq : 10 ^ 12 ∣ input.quantity := by
    have hle : 10 ^ 16 ≤ input.quantityWei.toNat := le_trans hquantity (truncateSignificant_le _ _)
    exact pow_dvd_truncateSignificant hle
  refine Nat.div_mul_cancel ?_
  have hmul := Nat.mul_dvd_mul hp hq
  rwa [← pow_add] at hmul

structure LimitOf (input : LimitAmountsInput) (amounts : OrderAmounts) : Prop where
  side : input.side = .buy ∨ input.side = .sell
  minimum : minimumQuantity ≤ input.quantity
  positive : input.price ≠ 0
  last : amounts.lastPriceWei.toNat = input.price
  average : amounts.pricePerShareWei = amounts.lastPriceWei
  maker : amounts.makerAmount.toNat = if input.side = .buy then input.collateral else input.quantity
  taker : amounts.takerAmount.toNat = if input.side = .buy then input.quantity else input.collateral
  amount : amounts.amount.toNat = input.quantity
  slippage : amounts.slippageBps.toNat = 0
  isMinAmountOut : amounts.isMinAmountOut = false

theorem parse_zero : Uint256.parse (ascii "0") = uint256 (0 : ℕ) := by decide +kernel

theorem limitOrder_eq_ok {price quantity maker taker : ℕ} : limitOrder price quantity maker taker = .ok amounts ↔
    amounts.lastPriceWei.toNat = price ∧ amounts.pricePerShareWei = amounts.lastPriceWei ∧
      amounts.makerAmount.toNat = maker ∧ amounts.takerAmount.toNat = taker ∧ amounts.amount.toNat = quantity ∧
      amounts.slippageBps.toNat = 0 ∧ amounts.isMinAmountOut = false := by
  unfold limitOrder
  rw [parse_zero]
  constructor
  · intro h
    split at h
    · rename_i h1 h2 h3 h4 h5
      cases h
      rw [uint256_eq_ok] at h1 h2 h3 h4 h5
      exact ⟨h1, rfl, h3, h4, h2, h5, rfl⟩
    · cases h
  · rintro ⟨last, average, maker, taker, amount, slippage, isMinAmountOut⟩
    rw [uint256_eq_ok.mpr last, uint256_eq_ok.mpr amount, uint256_eq_ok.mpr maker, uint256_eq_ok.mpr taker,
      uint256_eq_ok.mpr slippage]
    obtain ⟨lastPriceWei, pricePerShareWei, makerAmount, takerAmount, amountU, slippageBps, isMin⟩ := amounts
    cases average
    cases isMinAmountOut
    rfl

theorem limitAmounts_eq_ok : limitAmounts input = .ok amounts ↔ LimitOf input amounts := by
  unfold limitAmounts
  rw [integer_eq, integer_eq]
  change (if input.side ≠ .buy ∧ input.side ≠ .sell then _
    else if input.quantity < minimumQuantity then _
    else if input.price = 0 then _
    else limitOrder input.price input.quantity (if input.side = .buy then input.collateral else input.quantity)
      (if input.side = .buy then input.quantity else input.collateral)) = _ ↔ _
  constructor
  · intro h
    by_cases hside : input.side ≠ .buy ∧ input.side ≠ .sell
    · rw [if_pos hside] at h
      cases h
    rw [if_neg hside] at h
    by_cases hmin : input.quantity < minimumQuantity
    · rw [if_pos hmin] at h
      cases h
    rw [if_neg hmin] at h
    by_cases hprice : input.price = 0
    · rw [if_pos hprice] at h
      cases h
    rw [if_neg hprice, limitOrder_eq_ok] at h
    obtain ⟨last, average, maker, taker, amount, slippage, isMinAmountOut⟩ := h
    have hknown : input.side = .buy ∨ input.side = .sell := by
      by_contra hneither
      exact hside (not_or.mp hneither)
    exact ⟨hknown, not_lt.mp hmin, hprice, last, average, maker, taker, amount, slippage, isMinAmountOut⟩
  · rintro ⟨side, minimum, positive, last, average, maker, taker, amount, slippage, isMinAmountOut⟩
    rw [if_neg (fun hside => side.elim hside.1 hside.2), if_neg (not_lt.mpr minimum), if_neg positive, limitOrder_eq_ok]
    exact ⟨last, average, maker, taker, amount, slippage, isMinAmountOut⟩

def opposite : ContractSide → ContractSide
  | .buy => .sell
  | .sell => .buy
  | .unknown => .unknown

theorem limit_amounts_exact (h : limitAmounts input = .ok amounts) :
    (input.side = .buy → amounts.makerAmount.toNat = input.price * input.quantity / precision ∧
      amounts.takerAmount.toNat = input.quantity) ∧
    (input.side = .sell → amounts.makerAmount.toNat = input.quantity ∧
      amounts.takerAmount.toNat = input.price * input.quantity / precision) ∧
    (10 ^ 8 ≤ input.price → input.price * input.quantity / precision * precision = input.price * input.quantity) ∧
    ((input.price * input.quantity / precision : ℕ) * precision / input.quantity : ℚ) ≤ input.price ∧
    limitAmounts { input with side := opposite input.side } =
      .ok { amounts with makerAmount := amounts.takerAmount, takerAmount := amounts.makerAmount } := by
  have hl := limitAmounts_eq_ok.mp h
  refine ⟨?_, ?_, fun hprice => collateral_exact hprice hl.minimum, ?_, ?_⟩
  · intro hside
    rw [hl.maker, hl.taker, if_pos hside, if_pos hside]
    exact ⟨rfl, rfl⟩
  · intro hside
    have hne : input.side ≠ .buy := by
      rw [hside]
      decide
    rw [hl.maker, hl.taker, if_neg hne, if_neg hne]
    exact ⟨rfl, rfl⟩
  · have hpos : (0 : ℚ) < input.quantity := Nat.cast_pos.mpr (quantity_pos hl.minimum)
    rw [div_le_iff₀ hpos]
    exact_mod_cast Nat.div_mul_le_self (input.price * input.quantity) precision
  · refine limitAmounts_eq_ok.mpr
      ⟨?_, hl.minimum, hl.positive, hl.last, hl.average, ?_, ?_, hl.amount, hl.slippage, hl.isMinAmountOut⟩
    · rcases hl.side with hside | hside
      · exact .inr (by rw [hside]; rfl)
      · exact .inl (by rw [hside]; rfl)
    · have htaker := hl.taker
      rcases hl.side with hside | hside <;> rw [hside] at htaker ⊢ <;> exact htaker
    · have hmaker := hl.maker
      rcases hl.side with hside | hside <;> rw [hside] at hmaker ⊢ <;> exact hmaker

def fiveAtTwo : LimitAmountsInput :=
  ⟨.buy, twoTokens, fiveTokens⟩

theorem five_at_two_swapped : ∃ amounts, limitAmounts fiveAtTwo = .ok amounts ∧
    amounts.makerAmount.toNat = 10000000000000000000 ∧
    limitAmounts { fiveAtTwo with side := .sell } =
      .ok { amounts with makerAmount := amounts.takerAmount, takerAmount := amounts.makerAmount } := by
  have hmaker : (limitAmounts fiveAtTwo).map (fun amounts => amounts.makerAmount.toNat) = .ok 10000000000000000000 := by
    decide +kernel
  obtain ⟨amounts, hamounts, hmaker⟩ := Result.ok_of_map hmaker
  exact ⟨amounts, hamounts, hmaker, (limit_amounts_exact hamounts).2.2.2.2⟩

end PredictFun.Order
