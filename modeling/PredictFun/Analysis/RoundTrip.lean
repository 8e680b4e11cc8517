import PredictFun.Analysis.SellQuotes

namespace PredictFun.Analysis

open Base Ladder

variable {value : Uint256} {asks bids : List PriceLevel} {trip : ImmediateRoundTripQuote}

theorem quoteImmediateRoundTrip_ok (h : quoteImmediateRoundTrip value asks bids = .ok trip)
    (hbought : 0 < trip.buy.sharesWei.toNat) :
    quoteMarketBuyValue value asks = .ok trip.buy ∧ quoteMarketSellShares trip.buy.sharesWei bids = .ok trip.sell ∧
      trip.recoveredValueWei = trip.sell.returnedValueWei ∧
      trip.bookLossValueWei.toNat = trip.buy.spentValueWei.toNat - trip.recoveredValueWei.toNat ∧
      trip.complete = (trip.buy.complete && trip.sell.complete) := by
  unfold quoteImmediateRoundTrip at h
  obtain ⟨buy, hbuy, h⟩ := Result.bind_eq_ok.mp h
  split_ifs at h with hzero
  · cases h
    exact absurd hbought (by rw [Uint256.toNat_of_isZero hzero]; exact lt_irrefl 0)
  obtain ⟨sell, hsell, h⟩ := Result.bind_eq_ok.mp h
  rw [integer_eq, integer_eq] at h
  dsimp only at h
  obtain ⟨loss, hloss, h⟩ := Result.bind_eq_ok.mp h
  cases h
  refine ⟨hbuy, hsell, rfl, ?_, rfl⟩
  have hmax : (if (buy.spentValueWei.toNat : ℤ) - sell.returnedValueWei.toNat > 0 then
      (buy.spentValueWei.toNat : ℤ) - sell.returnedValueWei.toNat else 0) =
        (buy.spentValueWei.toNat - sell.returnedValueWei.toNat : ℕ) := by
    split_ifs <;> omega
  rw [hmax] at hloss
  exact uint256_eq_ok.mp hloss

theorem round_trip_makes_no_money
    (huncrossed : ∀ bid ∈ bids, ∀ ask ∈ asks, priceWei bid.price < priceWei ask.price)
    (h : quoteImmediateRoundTrip value asks bids = .ok trip) (hbought : 0 < trip.buy.sharesWei.toNat) :
    trip.recoveredValueWei.toNat < trip.buy.spentValueWei.toNat + trip.buy.levelsConsumed ∧
      (trip.bookLossValueWei.toNat : ℤ) = max 0 ((trip.buy.spentValueWei.toNat : ℤ) - trip.recoveredValueWei.toNat) ∧
      trip.sell.soldSharesWei.toNat ≤ trip.buy.sharesWei.toNat ∧
      (trip.complete = true ↔ trip.buy.complete = true ∧ trip.sell.complete = true) := by
  obtain ⟨hbuy, hsell, hrecovered, hloss, hcomplete⟩ := quoteImmediateRoundTrip_ok h hbought
  have hb := quoteMarketBuyValue_ok hbuy
  have hs := quoteMarketSellShares_ok hsell
  have hsold := depth_fill_le 1 trip.buy.sharesWei.toNat (bids.map rung)
  refine ⟨?_, ?_, ?_, ?_⟩
  · rw [hrecovered, hs.returned, hb.spent, hb.levels]
    rw [hb.shares] at hbought
    have hne : purchases value.toNat (asks.map rung) ≠ [] := by
      intro hnil
      rw [hnil] at hbought
      exact absurd hbought (lt_irrefl 0)
    -- every price sold at is below every price bought at
    have hprices : ∀ low ∈ fill 1 trip.buy.sharesWei.toNat (bids.map rung),
        ∀ high ∈ purchases value.toNat (asks.map rung), low.price ≤ high.price := by
      intro low hlow high hhigh
      have hbid := (fill_taken 1 _ (bids.map rung)).price_sublist.subset (List.mem_map_of_mem hlow)
      have hask := (purchases_prices_sublist _ (asks.map rung)).subset (List.mem_map_of_mem hhigh)
      simp only [List.map_map, List.mem_map] at hbid hask
      obtain ⟨bid, hm, hbid⟩ := hbid
      obtain ⟨ask, hm', hask⟩ := hask
      rw [← hbid, ← hask]
      exact (huncrossed bid hm ask hm').le
    refine Nat.lt_of_mul_lt_mul_right (a := protocolScale) ?_
    calc _ ≤ _ := worth_mul_le_cost
      _ ≤ _ := cost_le_cost hprices (hsold.trans_eq hb.shares)
      _ < _ := cost_lt_worth_mul protocolScale_pos hne
  · rw [hloss]
    omega
  · rw [hs.sold]
    exact hsold
  · rw [hcomplete, Bool.and_eq_true]

def sixTokens : Uint256 := ⟨ascii "6000000000000000000", by decide, by decide, by decide⟩

theorem six_tokens_lose_the_spread : ∃ trip, quoteImmediateRoundTrip sixTokens sampleAsks sampleBids = .ok trip ∧
    trip.buy.spentValueWei.toNat = 5999999999999999999 ∧ trip.recoveredValueWei.toNat = 5033333333333333333 ∧
    trip.recoveredValueWei.toNat < trip.buy.spentValueWei.toNat + trip.buy.levelsConsumed ∧
    trip.sell.soldSharesWei.toNat ≤ trip.buy.sharesWei.toNat := by
  have hvalues : (quoteImmediateRoundTrip sixTokens sampleAsks sampleBids).map (fun trip =>
      (trip.buy.sharesWei.toNat, trip.buy.spentValueWei.toNat, trip.recoveredValueWei.toNat)) =
      .ok (11333333333333333333, 5999999999999999999, 5033333333333333333) := by decide +kernel
  obtain ⟨trip, htrip, hvalues⟩ := Result.ok_of_map hvalues
  obtain ⟨hshares, hspent, hrecovered⟩ := Prod.mk.inj hvalues |>.imp_right Prod.mk.inj
  obtain ⟨hloss, -, hsold, -⟩ := round_trip_makes_no_money (by decide +kernel) htrip (by rw [hshares]; decide)
  exact ⟨trip, htrip, hspent, hrecovered, hloss, hsold⟩

end PredictFun.Analysis
