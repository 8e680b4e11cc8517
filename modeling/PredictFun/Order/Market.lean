import PredictFun.Base.Ladder
import PredictFun.Order.Significant

namespace PredictFun.Order

open Base Ladder

def rung (level : OrderDepthLevel) : Rung := ⟨level.priceWei.toNat, level.quantityWei.toNat⟩

def ValidLevel (level : OrderDepthLevel) : Prop :=
  0 < level.priceWei.toNat ∧ level.priceWei.toNat ≤ precision ∧ 0 < level.quantityWei.toNat

theorem precision_pos : 0 < precision := by decide

namespace ProcessedBook

variable {requested : ℕ} {levels : List OrderDepthLevel} {s t : ProcessedBook}

theorem loop_cons {level : OrderDepthLevel} (h : ValidLevel level) :
    loop requested (level :: levels) s =
      if requested - s.quantity ≤ 0 then .ok s
      else loop requested levels (s.consume (rung level).price (min (rung level).amount (requested - s.quantity))) := by
  obtain ⟨hpos, hle, hquantity⟩ := h
  rw [loop, integer_eq, integer_eq]
  change (if level.priceWei.toNat = 0 ∨ level.priceWei.toNat > precision ∨ level.quantityWei.toNat = 0 then _
    else if requested - s.quantity = 0 then _ else _) = _
  have hmin : (if requested - s.quantity < level.quantityWei.toNat then requested - s.quantity else level.quantityWei.toNat) =
      min (rung level).amount (requested - s.quantity) := by
    change _ = min level.quantityWei.toNat _
    split_ifs <;> omega
  rw [if_neg (by omega), hmin]
  simp only [Nat.le_zero]
  rfl

theorem loop_ok_cons {level : OrderDepthLevel} (h : loop requested (level :: levels) s = .ok t) : ValidLevel level := by
  rw [loop, integer_eq, integer_eq] at h
  change (if level.priceWei.toNat = 0 ∨ level.priceWei.toNat > precision ∨ level.quantityWei.toNat = 0 then _ else _) = _ at h
  split_ifs at h with hvalid
  · cases h
  all_goals refine ⟨?_, ?_, ?_⟩ <;> omega

structure Made (s : ProcessedBook) (takes : List Rung) (t : ProcessedBook) : Prop where
  quantity : t.quantity = s.quantity + depth takes
  weightedPrice : t.weightedPrice = s.weightedPrice + cost takes
  lastPrice : t.lastPrice = (takes.map Rung.price).getLastD s.lastPrice
  prices : ∀ take ∈ takes, 0 < take.price ∧ take.price ≤ precision

theorem Made.consume {take : Rung} {takes : List Rung} (hprice : 0 < take.price ∧ take.price ≤ precision)
    (h : Made (s.consume take.price take.amount) takes t) : Made s (take :: takes) t := by
  obtain ⟨quantity, weightedPrice, lastPrice, prices⟩ := h
  refine ⟨?_, ?_, ?_, List.forall_mem_cons.mpr ⟨hprice, prices⟩⟩
  · rw [quantity, depth_cons, ← add_assoc, ProcessedBook.consume]
  · rw [weightedPrice, cost_cons, ← add_assoc, ProcessedBook.consume]
  · rw [lastPrice, List.map_cons, List.getLastD_cons, ProcessedBook.consume]

theorem walk (requested : ℕ) : Walk (loop requested) (fun level _ => ValidLevel level) (fun s => requested - s.quantity ≤ 0)
    (fun _ s => s) (fun level s => s.consume (rung level).price (min (rung level).amount (requested - s.quantity))) where
  nil _ := rfl
  fits := loop_ok_cons
  cons := loop_cons

theorem loop_made (h : loop requested levels s = .ok t) :
    Made s (fill 0 (requested - s.quantity) (levels.map rung)) t := by
  refine (walk requested).made (fun s levels t => Made s (fill 0 (requested - s.quantity) (levels.map rung)) t) ?_ ?_ ?_ h
  · exact fun s => ⟨rfl, rfl, rfl, nofun⟩
  · intro level levels s hstop
    rw [fill_of_le hstop]
    exact ⟨rfl, rfl, rfl, nofun⟩
  · intro level levels s t hvalid hstop hnext
    rw [consume, ← Nat.sub_sub] at hnext
    rw [List.map_cons, fill_cons (not_le.mp hstop)]
    exact .consume ⟨hvalid.1, hvalid.2.1⟩ hnext

theorem loop_valid (hvalid : ∀ level ∈ levels, ValidLevel level) (requested : ℕ) (s : ProcessedBook) :
    ∃ t, loop requested levels s = .ok t :=
  (walk requested).succeeds_of_forall hvalid s

end ProcessedBook

structure Processed (rungs : List Rung) (quantity : ℕ) (processed : ProcessedBook) : Prop where
  depth_eq : depth (fill 0 quantity rungs) = quantity
  weightedPrice : processed.weightedPrice = cost (fill 0 quantity rungs)
  lastPrice : processed.lastPrice = ((fill 0 quantity rungs).map Rung.price).getLastD 0
  prices : ∀ take ∈ fill 0 quantity rungs, 0 < take.price ∧ take.price ≤ precision

theorem processBook_ok {levels : List OrderDepthLevel} {quantity : ℕ} {processed : ProcessedBook}
    (h : processBook levels quantity = .ok processed) : Processed (levels.map rung) quantity processed := by
  obtain ⟨result, hloop, h⟩ := Result.bind_eq_ok.mp h
  obtain ⟨hquantity, hweighted, hlast, hprices⟩ := ProcessedBook.loop_made hloop
  simp only [Nat.sub_zero, Nat.zero_add] at hquantity hweighted hlast hprices
  split_ifs at h with hless
  cases h
  have hle := depth_fill_le 0 quantity (levels.map rung)
  exact ⟨by omega, hweighted, hlast, hprices⟩

namespace Processed

variable {rungs : List Rung} {quantity : ℕ} {processed : ProcessedBook}

theorem fill_ne_nil (h : Processed rungs quantity processed) (hq : 0 < quantity) : fill 0 quantity rungs ≠ [] := by
  intro hnil
  have := h.depth_eq
  rw [hnil, depth_nil] at this
  omega

theorem lastPrice_mem (h : Processed rungs quantity processed) (hq : 0 < quantity) :
    ∃ take ∈ fill 0 quantity rungs, processed.lastPrice = take.price := by
  refine ⟨(fill 0 quantity rungs).getLast (h.fill_ne_nil hq), List.getLast_mem _, ?_⟩
  rw [h.lastPrice, List.getLastD_eq_getLast?, List.getLast?_map, List.getLast?_eq_getLast_of_ne_nil (h.fill_ne_nil hq)]
  rfl

theorem lastPrice_bounds (h : Processed rungs quantity processed) (hq : 0 < quantity) :
    0 < processed.lastPrice ∧ processed.lastPrice ≤ precision := by
  obtain ⟨take, hm, hlast⟩ := h.lastPrice_mem hq
  rw [hlast]
  exact h.prices take hm

theorem weightedPrice_le (h : Processed rungs quantity processed) : processed.weightedPrice ≤ precision * quantity := by
  rw [h.weightedPrice]
  calc _ ≤ precision * depth (fill 0 quantity rungs) := cost_le_mul_depth (fun take hm => (h.prices take hm).2)
    _ = _ := by rw [h.depth_eq]

theorem le_lastPrice (h : Processed rungs quantity processed)
    (hsorted : (rungs.map Rung.price).Pairwise (fun left right => left ≤ right)) :
    processed.weightedPrice ≤ processed.lastPrice * quantity := by
  have horder := hsorted.sublist (fill_taken 0 quantity rungs).price_sublist
  have hlast := (rel_first_last Nat.le_refl horder 0).2
  rw [h.weightedPrice, h.lastPrice]
  calc _ ≤ _ := cost_le_mul_depth (fun take hm => hlast take.price (List.mem_map_of_mem hm))
    _ = _ := by rw [h.depth_eq]

theorem lastPrice_le (h : Processed rungs quantity processed)
    (hsorted : (rungs.map Rung.price).Pairwise (fun left right => right ≤ left)) :
    processed.lastPrice * quantity ≤ processed.weightedPrice := by
  have horder := hsorted.sublist (fill_taken 0 quantity rungs).price_sublist
  have hlast := (rel_first_last (r := fun left right => right ≤ left) Nat.le_refl horder 0).2
  rw [h.weightedPrice, h.lastPrice]
  calc _ = _ := by rw [h.depth_eq]
    _ ≤ _ := mul_depth_le_cost (fun take hm => hlast take.price (List.mem_map_of_mem hm))

end Processed

section

variable {base slippage slippage' quantity : ℕ} {processed : ProcessedBook}

theorem deflated_le (base slippage : ℕ) : deflated base slippage ≤ base := by
  unfold deflated
  split_ifs
  · exact Nat.zero_le base
  · exact Nat.div_le_of_le_mul ((Nat.mul_le_mul_left _ (Nat.sub_le _ _)).trans_eq (mul_comm _ _))

theorem deflated_anti (h : slippage ≤ slippage') : deflated base slippage' ≤ deflated base slippage := by
  unfold deflated
  split_ifs
  · exact le_refl 0
  · exact Nat.zero_le _
  · omega
  · exact Nat.div_le_div_right (Nat.mul_le_mul_left _ (Nat.sub_le_sub_left h _))

theorem deflated_eq_zero (h : basisPoints ≤ slippage) : deflated base slippage = 0 := by
  unfold deflated
  split_ifs
  · rfl
  · rw [Nat.sub_eq_zero_of_le h, mul_zero, Nat.zero_div]

def inflated (quantity base slippage : ℕ) : ℕ := min (base * (basisPoints + slippage) / basisPoints) quantity

theorem inflated_mono (h : slippage ≤ slippage') : inflated quantity base slippage ≤ inflated quantity base slippage' :=
  min_le_min_right _ (Nat.div_le_div_right (Nat.mul_le_mul_left _ (Nat.add_le_add_left h _)))

theorem le_inflated (h : base ≤ quantity) : base ≤ inflated quantity base slippage := by
  refine le_min ((Nat.le_div_iff_mul_le (by decide)).mpr ?_) h
  exact Nat.mul_le_mul_left _ (Nat.le_add_right _ _)

theorem marketSides_minOut : marketSides .buy true quantity slippage processed =
    (processed.weightedPrice / precision, deflated (processed.weightedPrice / processed.lastPrice) slippage) := by
  have hshares : (if processed.lastPrice > 0 then processed.weightedPrice / processed.lastPrice else 0) =
      processed.weightedPrice / processed.lastPrice := by
    split_ifs with h
    · rfl
    · rw [Nat.eq_zero_of_not_pos h, Nat.div_zero]
  rw [marketSides, if_pos ⟨rfl, rfl⟩, hshares]

theorem marketSides_buy (h : processed.lastPrice * quantity / precision ≤ quantity) :
    marketSides .buy false quantity slippage processed =
      (inflated quantity (processed.lastPrice * quantity / precision) slippage, quantity) := by
  rw [marketSides, if_neg (by simp), if_pos rfl]
  generalize processed.lastPrice * quantity / precision = base at h
  dsimp only
  split_ifs with hs hlt
  · rw [inflated, min_eq_left hlt.le]
  · rw [inflated, min_eq_right (not_lt.mp hlt)]
  · rw [inflated, Nat.eq_zero_of_not_pos hs, Nat.add_zero, Nat.mul_div_cancel _ (by decide), min_eq_left h]

theorem marketSides_sell (isMinAmountOut : Bool) : marketSides .sell isMinAmountOut quantity slippage processed =
    (quantity, deflated (processed.lastPrice * quantity / precision) slippage) := by
  rw [marketSides, if_neg (by simp), if_neg (by simp)]

end

variable {input : MarketQuantityInput} {book : OrderDepth} {amounts : OrderAmounts}

def OrderDepth.used (book : OrderDepth) (side : ContractSide) : List OrderDepthLevel :=
  if side = .buy then book.asks else book.bids

def MarketQuantityInput.quantity (input : MarketQuantityInput) : ℕ := truncateSignificant input.quantityWei.toNat 5

structure AmountsOf (input : MarketQuantityInput) (processed : ProcessedBook) (amounts : OrderAmounts) : Prop where
  minimum : minimumQuantity ≤ input.quantity
  side : input.side = .buy ∨ input.side = .sell
  last : amounts.lastPriceWei.toNat = processed.lastPrice
  average : amounts.pricePerShareWei.toNat = processed.weightedPrice / input.quantity
  sides : (amounts.makerAmount.toNat, amounts.takerAmount.toNat) =
    marketSides input.side input.isMinAmountOut input.quantity input.slippageBps.toNat processed
  amount : amounts.amount.toNat = input.quantity

theorem marketAmounts_ok (h : input.marketAmounts book = .ok amounts) :
    ∃ processed, processBook (book.used input.side) input.quantity = .ok processed ∧ AmountsOf input processed amounts := by
  unfold MarketQuantityInput.marketAmounts marketQuantity at h
  rw [integer_eq, integer_eq] at h
  obtain ⟨raw, hraw, h⟩ := Result.bind_eq_ok.mp h
  cases hraw
  obtain ⟨slippage, hslippage, h⟩ := Result.bind_eq_ok.mp h
  cases hslippage
  have hused : (if input.side = .buy then book.asks else book.bids) = book.used input.side := rfl
  dsimp only at h
  rw [hused] at h
  split_ifs at h with hmin hside
  · cases h
  · cases h
  obtain ⟨processed, hprocessed, h⟩ := Result.bind_eq_ok.mp h
  refine ⟨processed, hprocessed, ?_⟩
  cases hsides : marketSides input.side input.isMinAmountOut input.quantity input.slippageBps.toNat processed with
  | mk maker taker =>
    unfold MarketQuantityInput.quantity at hsides
    rw [hsides] at h
    dsimp only at h
    obtain ⟨last, hlast, h⟩ := Result.bind_eq_ok.mp h
    obtain ⟨average, haverage, h⟩ := Result.bind_eq_ok.mp h
    obtain ⟨makerU, hmaker, h⟩ := Result.bind_eq_ok.mp h
    obtain ⟨takerU, htaker, h⟩ := Result.bind_eq_ok.mp h
    obtain ⟨amount, hamount, h⟩ := Result.bind_eq_ok.mp h
    cases h
    refine ⟨not_lt.mp hmin, ?_, uint256_eq_ok.mp hlast, uint256_eq_ok.mp haverage, ?_, uint256_eq_ok.mp hamount⟩
    · cases hs : input.side with
      | buy => exact .inl rfl
      | sell => exact .inr rfl
      | unknown => exact absurd (by rw [hs]; decide) hside
    · rw [uint256_eq_ok.mp hmaker, uint256_eq_ok.mp htaker]
      exact hsides.symm

namespace AmountsOf

variable {processed : ProcessedBook}

theorem quantity_pos (h : AmountsOf input processed amounts) : 0 < input.quantity := lt_of_lt_of_le (by decide) h.minimum

theorem minOut (h : AmountsOf input processed amounts) (hside : input.side = .buy) (hmin : input.isMinAmountOut = true) :
    amounts.makerAmount.toNat = processed.weightedPrice / precision ∧
      amounts.takerAmount.toNat = deflated (processed.weightedPrice / processed.lastPrice) input.slippageBps.toNat := by
  have hsides := h.sides
  rw [hside, hmin, marketSides_minOut] at hsides
  exact Prod.mk.inj hsides

theorem base_le {rungs : List Rung} (h : AmountsOf input processed amounts) (hp : Processed rungs input.quantity processed) :
    processed.lastPrice * input.quantity / precision ≤ input.quantity :=
  Nat.div_le_of_le_mul (Nat.mul_le_mul_right _ (hp.lastPrice_bounds h.quantity_pos).2)

theorem buy {rungs : List Rung} (h : AmountsOf input processed amounts) (hp : Processed rungs input.quantity processed)
    (hside : input.side = .buy) (hmin : input.isMinAmountOut = false) :
    amounts.makerAmount.toNat =
        inflated input.quantity (processed.lastPrice * input.quantity / precision) input.slippageBps.toNat ∧
      amounts.takerAmount.toNat = input.quantity := by
  have hsides := h.sides
  rw [hside, hmin, marketSides_buy (h.base_le hp)] at hsides
  exact Prod.mk.inj hsides

theorem sell (h : AmountsOf input processed amounts) (hside : input.side = .sell) :
    amounts.makerAmount.toNat = input.quantity ∧
      amounts.takerAmount.toNat =
        deflated (processed.lastPrice * input.quantity / precision) input.slippageBps.toNat := by
  have hsides := h.sides
  rw [hside, marketSides_sell] at hsides
  exact Prod.mk.inj hsides

end AmountsOf

def Sorted (side : ContractSide) (levels : List OrderDepthLevel) : Prop :=
  levels.Pairwise (fun left right =>
    if side = .buy then left.priceWei.toNat ≤ right.priceWei.toNat else right.priceWei.toNat ≤ left.priceWei.toNat)

theorem Sorted.ascending {side : ContractSide} {levels : List OrderDepthLevel} (h : Sorted side levels) (hside : side = .buy) :
    ((levels.map rung).map Rung.price).Pairwise (fun left right => left ≤ right) := by
  rw [List.map_map, List.pairwise_map]
  refine h.imp (fun {left right} hle => ?_)
  rwa [if_pos hside] at hle

theorem Sorted.descending {side : ContractSide} {levels : List OrderDepthLevel} (h : Sorted side levels) (hside : side = .sell) :
    ((levels.map rung).map Rung.price).Pairwise (fun left right => right ≤ left) := by
  rw [List.map_map, List.pairwise_map]
  refine h.imp (fun {left right} hle => ?_)
  rwa [if_neg (by rw [hside]; decide)] at hle

def MarketQuantityInput.cost (input : MarketQuantityInput) (book : OrderDepth) : ℕ :=
  Ladder.cost (fill 0 input.quantity ((book.used input.side).map rung))

theorem market_amounts_protect (input : MarketQuantityInput) (book : OrderDepth) :
    (∀ amounts, Sorted input.side (book.used input.side) → input.marketAmounts book = .ok amounts →
      (input.side = .buy → amounts.pricePerShareWei.toNat ≤ amounts.lastPriceWei.toNat) ∧
      (input.side = .buy → input.isMinAmountOut = false →
        input.cost book / precision ≤ amounts.makerAmount.toNat ∧ amounts.makerAmount.toNat ≤ input.quantity ∧
        amounts.takerAmount.toNat = input.quantity) ∧
      (input.side = .sell →
        amounts.makerAmount.toNat = input.quantity ∧ amounts.takerAmount.toNat ≤ input.cost book / precision ∧
        amounts.lastPriceWei.toNat ≤ amounts.pricePerShareWei.toNat) ∧
      (input.side = .buy → input.isMinAmountOut = true →
        amounts.makerAmount.toNat = input.cost book / precision ∧ amounts.takerAmount.toNat ≤ input.quantity)) ∧
    (∀ processed, minimumQuantity ≤ input.quantity → processBook (book.used input.side) input.quantity = .ok processed →
      input.quantity ≠ 0 ∧ processed.lastPrice ≠ 0) ∧
    (depth ((book.used input.side).map rung) < input.quantity → ∃ error, input.marketAmounts book = .error error) := by
  refine ⟨?_, ?_, ?_⟩
  · intro amounts hsorted h
    obtain ⟨processed, hprocessed, ha⟩ := marketAmounts_ok h
    have hp := processBook_ok hprocessed
    have hcost : processed.weightedPrice = input.cost book := hp.weightedPrice
    rw [ha.last, ha.average]
    refine ⟨?_, ?_, ?_, ?_⟩
    · intro hside
      exact Nat.div_le_of_le_mul ((hp.le_lastPrice (hsorted.ascending hside)).trans_eq (mul_comm _ _))
    · intro hside hmin
      obtain ⟨hmaker, htaker⟩ := ha.buy hp hside hmin
      refine ⟨?_, ?_, htaker⟩
      · rw [← hcost, hmaker]
        exact (Nat.div_le_div_right (hp.le_lastPrice (hsorted.ascending hside))).trans (le_inflated (ha.base_le hp))
      · rw [hmaker]
        exact min_le_right _ _
    · intro hside
      obtain ⟨hmaker, htaker⟩ := ha.sell hside
      refine ⟨hmaker, ?_, ?_⟩
      · rw [← hcost, htaker]
        exact (deflated_le _ _).trans (Nat.div_le_div_right (hp.lastPrice_le (hsorted.descending hside)))
      · exact (Nat.le_div_iff_mul_le ha.quantity_pos).mpr (hp.lastPrice_le (hsorted.descending hside))
    · intro hside hmin
      obtain ⟨hmaker, htaker⟩ := ha.minOut hside hmin
      refine ⟨by rw [hmaker, hcost], ?_⟩
      rw [htaker]
      exact (deflated_le _ _).trans (Nat.div_le_of_le_mul (hp.le_lastPrice (hsorted.ascending hside)))
  · intro processed hmin hprocessed
    have hpos : 0 < input.quantity := lt_of_lt_of_le (by decide) hmin
    exact ⟨hpos.ne', ((processBook_ok hprocessed).lastPrice_bounds hpos).1.ne'⟩
  · intro hless
    cases h : input.marketAmounts book with
    | error error => exact ⟨error, rfl⟩
    | ok amounts =>
      obtain ⟨processed, hprocessed, -⟩ := marketAmounts_ok h
      have hdepth := (processBook_ok hprocessed).depth_eq
      have hle := (fill_taken 0 input.quantity ((book.used input.side).map rung)).depth_le
      omega

def twoTokens : Uint256 := .ofNat 2000000000000000000 (by decide)

def fiveTokens : Uint256 := .ofNat 5000000000000000000 (by decide)

def sampleBook : OrderDepth where
  asks := [⟨.ofNat 500000000000000000 (by decide), .ofNat 3000000000000000000 (by decide)⟩,
    ⟨.ofNat 880000000000000000 (by decide), .ofNat 4000000000000000000 (by decide)⟩]
  bids := [⟨.ofNat 900000000000000000 (by decide), twoTokens⟩,
    ⟨.ofNat 500000000000000000 (by decide), .ofNat 3000000000000000000 (by decide)⟩]

def fiveShares (side : ContractSide) (slippage : ℕ) (h : slippage < 2 ^ 256) : MarketQuantityInput :=
  ⟨side, fiveTokens, .ofNat slippage h, false⟩

theorem five_shares_protected : ∃ bought sold,
    (fiveShares .buy 0 (by decide)).marketAmounts sampleBook = .ok bought ∧
    (fiveShares .sell 0 (by decide)).marketAmounts sampleBook = .ok sold ∧
    bought.makerAmount.toNat = 4400000000000000000 ∧ sold.takerAmount.toNat = 2500000000000000000 ∧
    (fiveShares .buy 0 (by decide)).cost sampleBook / precision ≤ bought.makerAmount.toNat ∧
    sold.takerAmount.toNat ≤ (fiveShares .sell 0 (by decide)).cost sampleBook / precision := by
  have hbuy : ((fiveShares .buy 0 (by decide)).marketAmounts sampleBook).map (fun amounts => amounts.makerAmount.toNat) =
      .ok 4400000000000000000 := by decide +kernel
  have hsell : ((fiveShares .sell 0 (by decide)).marketAmounts sampleBook).map (fun amounts => amounts.takerAmount.toNat) =
      .ok 2500000000000000000 := by decide +kernel
  obtain ⟨bought, hbought, hmaker⟩ := Result.ok_of_map hbuy
  obtain ⟨sold, hsold, htaker⟩ := Result.ok_of_map hsell
  have hasks : Sorted .buy (sampleBook.used .buy) := by
    unfold Sorted
    decide
  have hbids : Sorted .sell (sampleBook.used .sell) := by
    unfold Sorted
    decide +kernel
  have hb := (market_amounts_protect (fiveShares .buy 0 (by decide)) sampleBook).1 bought hasks hbought
  have hs := (market_amounts_protect (fiveShares .sell 0 (by decide)) sampleBook).1 sold hbids hsold
  exact ⟨bought, sold, hbought, hsold, hmaker, htaker, (hb.2.1 rfl rfl).1, (hs.2.2.1 rfl).2.1⟩

theorem slippage_monotone {more : Uint256} {amounts' : OrderAmounts} (hle : input.slippageBps.toNat ≤ more.toNat)
    (h : input.marketAmounts book = .ok amounts) (h' : { input with slippageBps := more }.marketAmounts book = .ok amounts') :
    (input.side = .buy → amounts.makerAmount.toNat ≤ amounts'.makerAmount.toNat ∧
      amounts'.makerAmount.toNat ≤ input.quantity ∧ input.quantity ≤ input.quantityWei.toNat) ∧
    (input.side = .buy → input.isMinAmountOut = false → amounts.takerAmount = amounts'.takerAmount) ∧
    (input.side = .sell ∨ input.isMinAmountOut = true →
      amounts'.takerAmount.toNat ≤ amounts.takerAmount.toNat ∧ amounts.makerAmount = amounts'.makerAmount ∧
      (basisPoints ≤ input.slippageBps.toNat → amounts.takerAmount.toNat = 0) ∧
      (basisPoints ≤ more.toNat → amounts'.takerAmount.toNat = 0)) := by
  obtain ⟨processed, hprocessed, ha⟩ := marketAmounts_ok h
  obtain ⟨processed', hprocessed', ha'⟩ := marketAmounts_ok h'
  have hsame : processed = processed' := Except.ok.inj (hprocessed.symm.trans hprocessed')
  subst hsame
  have hp := processBook_ok hprocessed
  have hq : ({ input with slippageBps := more } : MarketQuantityInput).quantity = input.quantity := rfl
  refine ⟨?_, ?_, ?_⟩
  · intro hside
    refine ⟨?_, ?_, truncateSignificant_le _ _⟩
    · cases hmin : input.isMinAmountOut with
      | true => rw [(ha.minOut hside hmin).1, (ha'.minOut hside hmin).1]
      | false =>
        rw [(ha.buy hp hside hmin).1, (ha'.buy hp hside hmin).1]
        exact inflated_mono hle
    · cases hmin : input.isMinAmountOut with
      | true =>
        rw [(ha'.minOut hside hmin).1]
        exact Nat.div_le_of_le_mul hp.weightedPrice_le
      | false =>
        rw [(ha'.buy hp hside hmin).1]
        exact min_le_right _ _
  · intro hside hmin
    exact Uint256.toNat_injective ((ha.buy hp hside hmin).2.trans (ha'.buy hp hside hmin).2.symm)
  · intro hcase
    obtain ⟨base, hmaker, htaker, htaker'⟩ : ∃ base, amounts.makerAmount = amounts'.makerAmount ∧
        amounts.takerAmount.toNat = deflated base input.slippageBps.toNat ∧
        amounts'.takerAmount.toNat = deflated base more.toNat := by
      rcases ha.side with hside | hside
      · have hmin : input.isMinAmountOut = true := hcase.resolve_left (by rw [hside]; decide)
        obtain ⟨hmaker, htaker⟩ := ha.minOut hside hmin
        obtain ⟨hmaker', htaker'⟩ := ha'.minOut hside hmin
        exact ⟨_, Uint256.toNat_injective (hmaker.trans hmaker'.symm), htaker, htaker'⟩
      · obtain ⟨hmaker, htaker⟩ := ha.sell hside
        obtain ⟨hmaker', htaker'⟩ := ha'.sell hside
        exact ⟨_, Uint256.toNat_injective (hmaker.trans hmaker'.symm), htaker, htaker'⟩
    rw [htaker, htaker']
    exact ⟨deflated_anti hle, hmaker, deflated_eq_zero, deflated_eq_zero⟩

theorem five_percent_costs_more : ∃ plain buffered,
    (fiveShares .buy 0 (by decide)).marketAmounts sampleBook = .ok plain ∧
    (fiveShares .buy 500 (by decide)).marketAmounts sampleBook = .ok buffered ∧
    buffered.makerAmount.toNat = 4620000000000000000 ∧
    plain.makerAmount.toNat ≤ buffered.makerAmount.toNat ∧ plain.takerAmount = buffered.takerAmount := by
  have hnone : ((fiveShares .buy 0 (by decide)).marketAmounts sampleBook).map (fun amounts => amounts.makerAmount.toNat) =
      .ok 4400000000000000000 := by decide +kernel
  have hmore : ((fiveShares .buy 500 (by decide)).marketAmounts sampleBook).map (fun amounts => amounts.makerAmount.toNat) =
      .ok 4620000000000000000 := by decide +kernel
  obtain ⟨plain, hplain, -⟩ := Result.ok_of_map hnone
  obtain ⟨buffered, hbuffered, hmaker⟩ := Result.ok_of_map hmore
  have hle : (fiveShares .buy 0 (by decide)).slippageBps.toNat ≤ (Uint256.ofNat 500 (by decide)).toNat := by decide +kernel
  obtain ⟨hbuy, htaker, -⟩ := slippage_monotone hle hplain hbuffered
  exact ⟨plain, buffered, hplain, hbuffered, hmaker, (hbuy rfl).1, htaker rfl rfl⟩

end PredictFun.Order
