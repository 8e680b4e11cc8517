import PredictFun.Order.Market

namespace PredictFun.Order

open Base Ladder

namespace ValueBuy

variable {value : ℕ} {levels : List OrderDepthLevel} {s t : ValueBuy}

def buy (take : Rung) (s : ValueBuy) : ValueBuy := ⟨s.shares + take.amount, s.spent + take.worth precision⟩

theorem loop_cons {level : OrderDepthLevel} (h : ValidLevel level) :
    loop value (level :: levels) s =
      if value - s.spent ≤ 0 then .ok s
      else loop value levels (s.buy (bought precision (value - s.spent) (rung level))) := by
  obtain ⟨hpos, hle, hquantity⟩ := h
  rw [loop, integer_eq, integer_eq]
  change (if level.priceWei.toNat = 0 ∨ level.priceWei.toNat > precision ∨ level.quantityWei.toNat = 0 then _
    else if value - s.spent = 0 then _
      else if (rung level).worth precision ≤ value - s.spent then _ else _) = _
  rw [if_neg (by omega)]
  simp only [Nat.le_zero]
  by_cases hstop : value - s.spent = 0
  · rw [if_pos hstop, if_pos hstop]
  rw [if_neg hstop, if_neg hstop]
  by_cases hwhole : (rung level).worth precision ≤ value - s.spent
  · rw [if_pos hwhole, bought_of_le hwhole]
    rfl
  · rw [if_neg hwhole, bought_of_lt (not_le.mp hwhole)]
    rfl

theorem loop_ok_cons {level : OrderDepthLevel} (h : loop value (level :: levels) s = .ok t) : ValidLevel level := by
  rw [loop, integer_eq, integer_eq] at h
  change (if level.priceWei.toNat = 0 ∨ level.priceWei.toNat > precision ∨ level.quantityWei.toNat = 0 then _ else _) = _ at h
  by_cases hvalid : level.priceWei.toNat = 0 ∨ level.priceWei.toNat > precision ∨ level.quantityWei.toNat = 0
  · rw [if_pos hvalid] at h
    cases h
  · refine ⟨?_, ?_, ?_⟩ <;> omega

theorem walk (value : ℕ) : Walk (loop value) (fun level _ => ValidLevel level) (fun s => value - s.spent ≤ 0) (fun _ s => s)
    (fun level s => s.buy (bought precision (value - s.spent) (rung level))) where
  nil _ := rfl
  fits := loop_ok_cons
  cons := loop_cons

theorem loop_made (h : loop value levels s = .ok t) :
    t.shares = s.shares + depth (spend precision 0 (value - s.spent) (levels.map rung)) ∧
      t.spent = s.spent + worth precision (spend precision 0 (value - s.spent) (levels.map rung)) := by
  refine (walk value).made (fun s levels t =>
    t.shares = s.shares + depth (spend precision 0 (value - s.spent) (levels.map rung)) ∧
      t.spent = s.spent + worth precision (spend precision 0 (value - s.spent) (levels.map rung))) ?_ ?_ ?_ h
  · exact fun s => ⟨rfl, rfl⟩
  · intro level levels s hstop
    rw [spend_of_le hstop]
    exact ⟨rfl, rfl⟩
  · rintro level levels s t - hstop ⟨hshares, hspent⟩
    rw [buy, ← Nat.sub_sub] at hshares hspent
    rw [List.map_cons, spend_cons (not_le.mp hstop), depth_cons, worth_cons, hshares, hspent, add_assoc, add_assoc]
    exact ⟨rfl, rfl⟩

theorem loop_valid (hvalid : ∀ level ∈ levels, ValidLevel level) (value : ℕ) (s : ValueBuy) :
    ∃ t, loop value levels s = .ok t :=
  (walk value).succeeds_of_forall hvalid s

end ValueBuy

variable {input : MarketValueInput} {book : OrderDepth} {amounts : OrderAmounts}

theorem valueAmounts_ok (h : input.marketAmounts book = .ok amounts) :
    ∃ bought quantity, ValueBuy.loop input.valueWei.toNat book.asks {} = .ok bought ∧
      quantity.toNat = truncateSignificant bought.shares 5 ∧
      MarketQuantityInput.marketAmounts ⟨.buy, quantity, input.slippageBps, input.isMinAmountOut⟩ book = .ok amounts := by
  unfold MarketValueInput.marketAmounts at h
  rw [integer_eq] at h
  obtain ⟨value, hvalue, h⟩ := Result.bind_eq_ok.mp h
  cases hvalue
  split_ifs at h
  · cases h
  obtain ⟨bought, hbought, h⟩ := Result.bind_eq_ok.mp h
  split_ifs at h
  · cases h
  obtain ⟨quantity, hquantity, h⟩ := Result.bind_eq_ok.mp h
  exact ⟨bought, quantity, hbought, uint256_eq_ok.mp hquantity, h⟩

theorem makerAmount_le (hsorted : Sorted .buy book.asks) (h : input.marketAmounts book = .ok amounts)
    (hmin : input.isMinAmountOut = true) :
    amounts.makerAmount.toNat ≤
      worth precision (spend precision 0 input.valueWei.toNat (book.asks.map rung)) +
        (inexact precision (book.asks.map rung) - 1) := by
  obtain ⟨bought, quantity, hloop, hquantity, hok⟩ := valueAmounts_ok h
  obtain ⟨hshares, -⟩ := ValueBuy.loop_made hloop
  simp only [Nat.sub_zero, Nat.zero_add] at hshares
  obtain ⟨processed, hprocessed, ha⟩ := marketAmounts_ok hok
  have hp := processBook_ok hprocessed
  rw [(ha.minOut rfl hmin).1, hp.weightedPrice]
  change cost (fill 0 (truncateSignificant quantity.toNat 5) (book.asks.map rung)) / precision ≤ _
  -- the order takes no more than the value paid for, and from the cheapest levels
  have hless : truncateSignificant quantity.toNat 5 + 0 ≤
      depth (spend precision 0 input.valueWei.toNat (book.asks.map rung)) := by
    have h1 := truncateSignificant_le quantity.toNat 5
    have h2 := truncateSignificant_le bought.shares 5
    omega
  have hcheapest := cost_fill_le (spend_taken precision_pos 0 input.valueWei.toNat (book.asks.map rung))
    (List.pairwise_map.mp (hsorted.ascending rfl)) (fun rung _ => Nat.zero_le rung.price) hless
  have hcost := cost_spend_le precision_pos 0 input.valueWei.toNat (book.asks.map rung)
  generalize worth precision (spend precision 0 input.valueWei.toNat (book.asks.map rung)) = spent at hcost
  generalize inexact precision (book.asks.map rung) = count at hcost
  refine Nat.le_of_lt_succ (Nat.div_lt_of_lt_mul ?_)
  calc _ ≤ spent * precision + count * (precision - 1) := by omega
    _ < precision * (spent + (count - 1) + 1) := by
      rcases count with - | count
      · have := precision_pos
        rw [Nat.zero_mul, Nat.mul_comm]
        nlinarith
      · have hlt : (count + 1) * (precision - 1) < (count + 1) * precision :=
          Nat.mul_lt_mul_of_pos_left (Nat.sub_lt precision_pos one_pos) (Nat.succ_pos count)
        rw [Nat.add_sub_cancel, add_assoc, Nat.mul_add, Nat.mul_comm precision spent, Nat.mul_comm precision (count + 1)]
        omega

def quarters : OrderDepth where
  asks := [⟨.ofNat 250000000000000000 (by decide), twoTokens⟩,
    ⟨.ofNat 750000000000000000 (by decide), twoTokens⟩]
  bids := []

def oneToken : MarketValueInput := ⟨.ofNat 1000000000000000000 (by decide), .ofNat 0 (by decide), true⟩

def tenths : OrderDepth where
  asks := [⟨.ofNat 300000000000000000 (by decide), .ofNat 1999999999999999999 (by decide)⟩,
    ⟨.ofNat 400000000000000000 (by decide), .ofNat 2000000000000000001 (by decide)⟩]
  bids := []

def spareless : MarketValueInput := ⟨.ofNat 1399999999999999999 (by decide), .ofNat 0 (by decide), true⟩

theorem uint256_bind_ne {α : Type} {n : ℤ} {next : Uint256 → Result α} (h : ∀ value, next value ≠ .error insufficientLiquidity) :
    (uint256 n >>= next) ≠ .error insufficientLiquidity := by
  intro he
  rcases Result.bind_eq_error.mp he with he | ⟨value, -, he⟩
  · cases uint256_error he
  · exact h value he

theorem insufficient_of_marketAmounts {input : MarketQuantityInput} (h : input.marketAmounts book = .error insufficientLiquidity) :
    processBook (book.used input.side) input.quantity = .error insufficientLiquidity := by
  unfold MarketQuantityInput.marketAmounts marketQuantity at h
  rw [integer_eq, integer_eq] at h
  have hused : (if input.side = .buy then book.asks else book.bids) = book.used input.side := rfl
  change (if input.quantity < minimumQuantity then _ else if input.side ≠ .buy ∧ input.side ≠ .sell then _
    else (processBook _ input.quantity >>= _)) = _ at h
  rw [hused] at h
  split_ifs at h
  · cases h
  · cases h
  rcases Result.bind_eq_error.mp h with h | ⟨processed, -, h⟩
  · exact h
  dsimp only at h
  exact absurd h (uint256_bind_ne fun _ => uint256_bind_ne fun _ => uint256_bind_ne fun _ => uint256_bind_ne fun _ =>
    uint256_bind_ne fun _ => nofun)

theorem processBook_valid {levels : List OrderDepthLevel} {quantity : ℕ} (hvalid : ∀ level ∈ levels, ValidLevel level)
    (hdepth : quantity ≤ depth (levels.map rung)) : ∃ processed, processBook levels quantity = .ok processed := by
  obtain ⟨processed, hloop⟩ := ProcessedBook.loop_valid hvalid quantity {}
  have hquantity := (ProcessedBook.loop_made hloop).quantity
  simp only [Nat.sub_zero, Nat.zero_add] at hquantity
  refine ⟨processed, Result.bind_eq_ok.mpr ⟨processed, hloop, if_neg ?_⟩⟩
  rcases fill_complete 0 quantity (levels.map rung) with hall | hdone
  · omega
  · omega

theorem value_buy_within_depth (hvalid : ∀ level ∈ book.asks, ValidLevel level) (input : MarketValueInput) :
    (∃ bought, ValueBuy.loop input.valueWei.toNat book.asks {} = .ok bought ∧
      truncateSignificant bought.shares 5 ≤ bought.shares ∧ bought.shares ≤ depth (book.asks.map rung) ∧
      bought.spent ≤ input.valueWei.toNat) ∧
    input.marketAmounts book ≠ .error insufficientLiquidity := by
  obtain ⟨bought, hloop⟩ := ValueBuy.loop_valid hvalid input.valueWei.toNat {}
  obtain ⟨hshares, hspent⟩ := ValueBuy.loop_made hloop
  simp only [Nat.sub_zero, Nat.zero_add] at hshares hspent
  have hdepth : bought.shares ≤ depth (book.asks.map rung) := by
    rw [hshares]
    exact (spend_taken precision_pos 0 _ _).depth_le
  refine ⟨⟨bought, hloop, truncateSignificant_le _ _, hdepth, ?_⟩, ?_⟩
  · rw [hspent]
    exact worth_spend_le precision_pos 0 _ _
  · intro h
    unfold MarketValueInput.marketAmounts at h
    rw [integer_eq] at h
    change (if input.valueWei.toNat < minimumValue then _ else (ValueBuy.loop input.valueWei.toNat book.asks {} >>= _)) = _ at h
    rw [hloop] at h
    split_ifs at h
    · cases h
    change (if bought.shares = 0 then _ else (uint256 (truncateSignificant bought.shares 5) >>= _)) = _ at h
    split_ifs at h
    · exact absurd (congrArg Error.message (Except.error.inj h)) (by decide)
    rcases Result.bind_eq_error.mp h with h | ⟨quantity, hquantity, h⟩
    · cases uint256_error h
    have hq := uint256_eq_ok.mp hquantity
    have hle : truncateSignificant quantity.toNat 5 ≤ depth (book.asks.map rung) := by
      have h1 := truncateSignificant_le quantity.toNat 5
      have h2 := truncateSignificant_le bought.shares 5
      omega
    obtain ⟨processed, hprocessed⟩ := processBook_valid hvalid hle
    have hno := insufficient_of_marketAmounts h
    cases hno.symm.trans hprocessed

theorem quarters_within_depth : (∀ level ∈ quarters.asks, ValidLevel level) ∧
    oneToken.marketAmounts quarters ≠ .error insufficientLiquidity := by
  have hvalid : ∀ level ∈ quarters.asks, ValidLevel level := by
    unfold ValidLevel
    decide
  exact ⟨hvalid, (value_buy_within_depth hvalid oneToken).2⟩

end PredictFun.Order
