import PredictFun.Analysis.BuyQuotes

namespace PredictFun.Analysis

open Base Ladder

namespace Sale

variable {requested : ℕ} {s t : Sale} {levels : List PriceLevel}

def sell (take : Rung) (s : Sale) : Sale :=
  { s with
    sold := s.sold + take.amount
    returned := s.returned + take.worth protocolScale
    weightedPrice := s.weightedPrice + take.price * take.amount
    worstPrice := take.price
    previousPrice := take.price
    consumedLevels := s.consumedLevels + 1 }

structure Made (s : Sale) (takes : List Rung) (t : Sale) : Prop where
  sold : t.sold = s.sold + depth takes
  returned : t.returned = s.returned + worth protocolScale takes
  weightedPrice : t.weightedPrice = s.weightedPrice + cost takes
  worstPrice : t.worstPrice = (takes.map Rung.price).getLastD s.worstPrice
  consumedLevels : t.consumedLevels = s.consumedLevels + takes.length

theorem Made.sell {take : Rung} {takes : List Rung} (h : Made (s.sell take) takes t) : Made s (take :: takes) t := by
  obtain ⟨sold, returned, weightedPrice, worstPrice, consumedLevels⟩ := h
  refine ⟨?_, ?_, ?_, ?_, ?_⟩
  · rw [sold, depth_cons, ← add_assoc, Sale.sell]
  · rw [returned, worth_cons, ← add_assoc, Sale.sell]
  · rw [weightedPrice, cost_cons, ← add_assoc, Sale.sell]
  · rw [worstPrice, List.map_cons, List.getLastD_cons, Sale.sell]
  · rw [consumedLevels, List.length_cons, Sale.sell, add_assoc, add_comm 1]

theorem loop_cons {level : PriceLevel} (hvalid : ValidLevel level) (hprevious : priceWei level.price ≤ s.previousPrice) :
    loop requested (level :: levels) s =
      if requested - s.sold ≤ 1 then .ok { s with previousPrice := priceWei level.price }
      else
        loop requested levels
          (s.sell ⟨priceWei level.price, min (quantityWei level.quantity) (requested - s.sold)⟩) := by
  obtain ⟨hpos, hle, hquantity⟩ := hvalid
  rw [loop]
  dsimp only
  rw [if_neg (by omega), if_neg (not_lt.mpr hprevious)]
  by_cases hstop : requested - s.sold ≤ 1
  · rw [if_pos hstop, if_pos hstop]
  have hmin : (if quantityWei level.quantity < requested - s.sold then quantityWei level.quantity else requested - s.sold) =
      min (quantityWei level.quantity) (requested - s.sold) := by
    split_ifs <;> omega
  rw [if_neg hstop, if_neg hstop, hmin, if_neg (by omega)]
  rfl

theorem loop_ok_cons {level : PriceLevel} (h : loop requested (level :: levels) s = .ok t) :
    ValidLevel level ∧ priceWei level.price ≤ s.previousPrice := by
  rw [loop] at h
  dsimp only at h
  split_ifs at h with hvalid hsorted
  all_goals first | cases h | skip
  all_goals refine ⟨⟨?_, ?_, ?_⟩, ?_⟩ <;> omega

theorem walk (requested : ℕ) : Walk (loop requested)
    (fun level s => ValidLevel level ∧ priceWei level.price ≤ s.previousPrice) (fun s => requested - s.sold ≤ 1)
    (fun level s => { s with previousPrice := priceWei level.price })
    (fun level s => s.sell ⟨priceWei level.price, min (quantityWei level.quantity) (requested - s.sold)⟩) where
  nil _ := rfl
  fits := loop_ok_cons
  cons h := loop_cons h.1 h.2

theorem loop_made (h : loop requested levels s = .ok t) : Made s (fill 1 (requested - s.sold) (levels.map rung)) t := by
  refine (walk requested).made (fun s levels t => Made s (fill 1 (requested - s.sold) (levels.map rung)) t) ?_ ?_ ?_ h
  · exact fun s => ⟨rfl, rfl, rfl, rfl, rfl⟩
  · intro level levels s hstop
    rw [fill_of_le hstop]
    exact ⟨rfl, rfl, rfl, rfl, rfl⟩
  · intro level levels s t _ hstop hmade
    have hnext := hmade.sell
    rw [sell, ← Nat.sub_sub] at hnext
    rw [List.map_cons, fill_cons (not_le.mp hstop)]
    exact hnext

end Sale

variable {shares : Uint256} {bids : List PriceLevel} {quote : MarketSellQuote}

structure SellQuoteOf (shares : Uint256) (takes : List Rung) (quote : MarketSellQuote) : Prop where
  requested : quote.requestedSharesWei = shares
  sold : quote.soldSharesWei.toNat = depth takes
  unsold : quote.soldSharesWei.toNat + quote.unsoldSharesWei.toNat = shares.toNat
  returned : quote.returnedValueWei.toNat = worth protocolScale takes
  vwap : quote.vwapPriceWei.toNat = cost takes / depth takes
  worst : quote.worstPriceWei.toNat = (takes.map Rung.price).getLastD 0
  levels : quote.levelsConsumed = takes.length
  complete : quote.complete = true ↔ shares.toNat ≤ depth takes + 1

theorem quoteMarketSellShares_ok (h : quoteMarketSellShares shares bids = .ok quote) :
    SellQuoteOf shares (fill 1 shares.toNat (bids.map rung)) quote := by
  unfold quoteMarketSellShares at h
  rw [integer_eq] at h
  obtain ⟨requested, hrequested, h⟩ := Result.bind_eq_ok.mp h
  cases hrequested
  split_ifs at h
  · cases h
  obtain ⟨made, hloop, h⟩ := Result.bind_eq_ok.mp h
  obtain ⟨hsold, hreturned, hweighted, hworst, hlevels⟩ := Sale.loop_made hloop
  simp only [Nat.sub_zero, Nat.zero_add] at hsold hreturned hweighted hworst hlevels
  have hle := depth_fill_le 1 shares.toNat (bids.map rung)
  rw [hsold, hreturned, hweighted, hworst, hlevels, average_eq, ← Nat.cast_sub hle] at h
  generalize fill 1 shares.toNat (bids.map rung) = takes at h hle
  dsimp only at h
  split at h
  · rename_i sold unsold returned vwap worst h1 h2 h3 h4 h5
    cases h
    refine ⟨rfl, uint256_eq_ok.mp h1, ?_, uint256_eq_ok.mp h3, uint256_eq_ok.mp h4, uint256_eq_ok.mp h5, rfl, ?_⟩
    · rw [uint256_eq_ok.mp h1, uint256_eq_ok.mp h2]
      omega
    · rw [decide_eq_true_iff]
      omega
  · cases h

theorem sell_quotes_exact
    (hsorted : bids.Pairwise (fun left right => priceWei right.price ≤ priceWei left.price))
    (h : quoteMarketSellShares shares bids = .ok quote) :
    quote.soldSharesWei.toNat + quote.unsoldSharesWei.toNat = shares.toNat ∧
      min shares.toNat (depth (bids.map rung)) ≤ quote.soldSharesWei.toNat + 1 ∧
      quote.soldSharesWei.toNat ≤ min shares.toNat (depth (bids.map rung)) ∧
      (∃ front rest part, bids.map rung = front ++ rest ∧
        (part = [] ∨ ∃ rung after amount, rest = rung :: after ∧ 0 < amount ∧ amount < rung.amount ∧
          part = [⟨rung.price, amount⟩]) ∧
        ∃ taken, taken = front ++ part ∧ quote.soldSharesWei.toNat = depth taken ∧
          quote.levelsConsumed = taken.length ∧
          (0 < quote.soldSharesWei.toNat →
            quote.returnedValueWei.toNat * protocolScale ≤ cost taken ∧
            cost taken < (quote.returnedValueWei.toNat + quote.levelsConsumed) * protocolScale ∧
            quote.vwapPriceWei.toNat = cost taken / depth taken ∧
            (∃ last ∈ taken.getLast?, quote.worstPriceWei.toNat = last.price) ∧
            quote.worstPriceWei.toNat ≤ quote.vwapPriceWei.toNat ∧
            ∀ level ∈ bids.head?, quote.vwapPriceWei.toNat ≤ priceWei level.price)) ∧
      (quote.complete = true ↔ shares.toNat - 1 ≤ depth (bids.map rung)) := by
  have hq := quoteMarketSellShares_ok h
  have hrungs := sorted_prices (r := fun left right => right ≤ left) hsorted
  have htaken := fill_taken 1 shares.toNat (bids.map rung)
  have hwanted := depth_fill_le 1 shares.toNat (bids.map rung)
  have hdone := fill_complete 1 shares.toNat (bids.map rung)
  have hle := htaken.depth_le
  refine ⟨hq.unsold, ?_, ?_, ?_, ?_⟩
  · rw [hq.sold]
    omega
  · rw [hq.sold]
    omega
  · obtain ⟨front, rest, part, hsplit, hpart, hfill⟩ := fill_front 1 shares.toNat (bids.map rung)
    refine ⟨front, rest, part, hsplit, hpart, _, hfill, hq.sold, hq.levels, ?_⟩
    rw [hq.sold, hq.returned, hq.levels, hq.vwap, hq.worst]
    have hall : ∀ level ∈ bids.head?, ∀ take ∈ fill 1 shares.toNat (bids.map rung), take.price ≤ priceWei level.price := by
      intro level hl take hm
      have hfirst := (rel_first_last (r := fun left right => right ≤ left) Nat.le_refl hrungs 0).1
      rw [List.head?_map, List.head?_map, Option.mem_def.mp hl] at hfirst
      exact hfirst _ rfl _ (htaken.price_sublist.subset (List.mem_map_of_mem hm))
    have horder := hrungs.sublist htaken.price_sublist
    generalize fill 1 shares.toNat (bids.map rung) = taken at hall horder
    intro hdepth
    have hne : taken ≠ [] := by
      rintro rfl
      exact absurd hdepth (lt_irrefl 0)
    have hlast := (rel_first_last (r := fun left right => right ≤ left) Nat.le_refl horder 0).2
    refine ⟨worth_mul_le_cost, cost_lt_worth_mul protocolScale_pos hne, rfl, ?_, ?_, ?_⟩
    · refine ⟨taken.getLast hne, List.getLast?_eq_getLast_of_ne_nil hne, ?_⟩
      rw [List.getLastD_eq_getLast?, List.getLast?_map, List.getLast?_eq_getLast_of_ne_nil hne]
      rfl
    · exact le_average hdepth (fun take hm => hlast take.price (List.mem_map_of_mem hm))
    · exact fun level hl => average_le (hall level hl)
  · rw [hq.complete]
    omega

def sampleBids : List PriceLevel := [⟨.cents 45 (by decide), 10, 0⟩, ⟨.cents 40 (by decide), 10, 0⟩]

theorem sampleBids_sorted : sampleBids.Pairwise (fun left right => priceWei right.price ≤ priceWei left.price) := by
  decide

theorem twenty_shares_sold : ∃ quote, quoteMarketSellShares twentyTokens sampleBids = .ok quote ∧
    quote.returnedValueWei.toNat = 8500000000000000000 ∧
    quote.soldSharesWei.toNat + quote.unsoldSharesWei.toNat = twentyTokens.toNat ∧
    (quote.complete = true ↔ twentyTokens.toNat - 1 ≤ depth (sampleBids.map rung)) := by
  have hreturned : (quoteMarketSellShares twentyTokens sampleBids).map (fun quote => quote.returnedValueWei.toNat) =
      .ok 8500000000000000000 := by decide
  obtain ⟨quote, hq, hreturned⟩ := Result.ok_of_map hreturned
  obtain ⟨hsum, -, -, -, hcomplete⟩ := sell_quotes_exact sampleBids_sorted hq
  exact ⟨quote, hq, hreturned, hsum, hcomplete⟩

end PredictFun.Analysis
