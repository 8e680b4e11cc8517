import PredictFun.Analysis.Liquidity
import PredictFun.Base.Ladder

namespace PredictFun.Analysis

open Base Ladder

def rung (level : PriceLevel) : Rung := ⟨priceWei level.price, quantityWei level.quantity⟩

def ValidLevel (level : PriceLevel) : Prop :=
  0 < priceWei level.price ∧ priceWei level.price ≤ protocolScale ∧ 0 < quantityWei level.quantity

/-- What a budget buys: the levels from the front, except those that are worth less than one wei. -/
def purchases (budget : ℕ) (rungs : List Rung) : List Rung :=
  (spend protocolScale 1 budget rungs).filter (fun rung => 0 < rung.worth protocolScale)

theorem protocolScale_pos : 0 < protocolScale := by decide

section

variable {budget : ℕ} {rung : Rung} {rungs rest : List Rung}

theorem purchases_of_le (h : budget ≤ 1) (rungs : List Rung) : purchases budget rungs = [] := by
  rw [purchases, spend_of_le h, List.filter_nil]

theorem purchases_cons (h : 1 < budget) : purchases budget (rung :: rest) =
    if (bought protocolScale budget rung).worth protocolScale = 0 then purchases budget rest
    else bought protocolScale budget rung ::
      purchases (budget - (bought protocolScale budget rung).worth protocolScale) rest := by
  rw [purchases, spend_cons h, List.filter_cons]
  by_cases hzero : (bought protocolScale budget rung).worth protocolScale = 0
  · rw [if_neg (by simp [hzero]), if_pos hzero, hzero, Nat.sub_zero, purchases]
  · rw [if_pos (by simpa using Nat.pos_of_ne_zero hzero), if_neg hzero, purchases]

theorem worth_purchases (budget : ℕ) (rungs : List Rung) :
    worth protocolScale (purchases budget rungs) = worth protocolScale (spend protocolScale 1 budget rungs) := by
  rw [purchases]
  induction spend protocolScale 1 budget rungs with
  | nil => rfl
  | cons take takes ih =>
    rw [List.filter_cons, worth_cons]
    split_ifs with hkeep
    · rw [worth_cons, ih]
    · have : take.worth protocolScale = 0 := by simpa using hkeep
      rw [ih, this, Nat.zero_add]

end

namespace Purchase

variable {requested : ℕ} {s t : Purchase} {levels : List PriceLevel}

def took (requested : ℕ) (level : PriceLevel) (s : Purchase) : Purchase :=
  { s with previousPrice := priceWei level.price }.consume (bought protocolScale (requested - s.spent) (rung level)).price
    (bought protocolScale (requested - s.spent) (rung level)).amount
    ((bought protocolScale (requested - s.spent) (rung level)).worth protocolScale)

theorem consume_rung (take : Rung) (s : Purchase) :
    s.consume take.price take.amount (take.worth protocolScale) =
      if take.worth protocolScale = 0 then s
      else
        { s with
          spent := s.spent + take.worth protocolScale
          shares := s.shares + take.amount
          weightedPrice := s.weightedPrice + take.price * take.amount
          worstPrice := take.price
          consumedLevels := s.consumedLevels + 1 } := by
  unfold consume
  by_cases h : take.worth protocolScale = 0
  · rw [if_pos (.inr h), if_pos h]
  · have hamount : take.amount ≠ 0 := by
      intro hzero
      exact h (by rw [Rung.worth, hzero, mul_zero, Nat.zero_div])
    rw [if_neg (not_or.mpr ⟨hamount, h⟩), if_neg h]

structure Made (s : Purchase) (takes : List Rung) (t : Purchase) : Prop where
  spent : t.spent = s.spent + worth protocolScale takes
  shares : t.shares = s.shares + depth takes
  weightedPrice : t.weightedPrice = s.weightedPrice + cost takes
  worstPrice : t.worstPrice = (takes.map Rung.price).getLastD s.worstPrice
  consumedLevels : t.consumedLevels = s.consumedLevels + takes.length

theorem loop_cons {level : PriceLevel} (hvalid : ValidLevel level) (hprevious : s.previousPrice ≤ priceWei level.price) :
    loop requested (level :: levels) s =
      if requested - s.spent ≤ 1 then .ok { s with previousPrice := priceWei level.price }
      else loop requested levels (s.took requested level) := by
  obtain ⟨hpos, hle, hquantity⟩ := hvalid
  rw [loop, took]
  dsimp only
  rw [if_neg (by omega), if_neg (not_lt.mpr hprevious)]
  by_cases hstop : requested - s.spent ≤ 1
  · rw [if_pos hstop, if_pos hstop]
  rw [if_neg hstop, if_neg hstop]
  rcases Nat.lt_or_ge (requested - s.spent) ((rung level).worth protocolScale) with hpart | hwhole
  · -- the part is never empty
    have hleft := budget_le_bought hpos hle hpart
    have hamount : (requested - s.spent) * protocolScale / priceWei level.price ≠ 0 := by
      intro hzero
      rw [bought_of_lt hpart, Rung.worth] at hleft
      change requested - s.spent ≤ priceWei level.price * ((requested - s.spent) * protocolScale / priceWei level.price) /
        protocolScale + 1 at hleft
      rw [hzero, mul_zero, Nat.zero_div] at hleft
      omega
    have hcost : priceWei level.price * quantityWei level.quantity / protocolScale > requested - s.spent := hpart
    rw [if_pos hcost, if_neg hamount, bought_of_lt hpart]
    rfl
  · have hcost : ¬priceWei level.price * quantityWei level.quantity / protocolScale > requested - s.spent := not_lt.mpr hwhole
    rw [if_neg hcost, bought_of_le hwhole]
    rfl

theorem loop_ok_cons {level : PriceLevel} (h : loop requested (level :: levels) s = .ok t) :
    ValidLevel level ∧ s.previousPrice ≤ priceWei level.price := by
  rw [loop] at h
  dsimp only at h
  split_ifs at h with hvalid hsorted
  all_goals first | cases h | skip
  all_goals refine ⟨⟨?_, ?_, ?_⟩, ?_⟩ <;> omega

theorem Made.consume {take : Rung} {price : ℕ} {takes : List Rung}
    (h : Made ({ s with previousPrice := price }.consume take.price take.amount (take.worth protocolScale)) takes t) :
    Made s (if take.worth protocolScale = 0 then takes else take :: takes) t := by
  rw [consume_rung] at h
  split_ifs at h ⊢
  · exact ⟨h.spent, h.shares, h.weightedPrice, h.worstPrice, h.consumedLevels⟩
  · obtain ⟨spent, shares, weightedPrice, worstPrice, consumedLevels⟩ := h
    refine ⟨?_, ?_, ?_, ?_, ?_⟩
    · rw [spent, worth_cons, ← add_assoc]
    · rw [shares, depth_cons, ← add_assoc]
    · rw [weightedPrice, cost_cons, ← add_assoc]
    · rw [worstPrice, List.map_cons, List.getLastD_cons]
    · rw [consumedLevels, List.length_cons, add_assoc, add_comm 1]

theorem spent_took (requested : ℕ) (level : PriceLevel) :
    (s.took requested level).spent = s.spent + (bought protocolScale (requested - s.spent) (rung level)).worth protocolScale := by
  unfold took
  generalize bought protocolScale (requested - s.spent) (rung level) = take
  rw [consume_rung]
  split_ifs with h
  · rw [h, Nat.add_zero]
  · rfl

theorem previousPrice_took (requested : ℕ) (level : PriceLevel) :
    (s.took requested level).previousPrice = priceWei level.price := by
  unfold took
  generalize bought protocolScale (requested - s.spent) (rung level) = take
  rw [consume_rung]
  split_ifs
  · rfl
  · rfl

theorem walk (requested : ℕ) : Walk (loop requested)
    (fun level s => ValidLevel level ∧ s.previousPrice ≤ priceWei level.price) (fun s => requested - s.spent ≤ 1)
    (fun level s => { s with previousPrice := priceWei level.price })
    (took requested) where
  nil _ := rfl
  fits := loop_ok_cons
  cons h := loop_cons h.1 h.2

theorem loop_made (h : loop requested levels s = .ok t) :
    Made s (purchases (requested - s.spent) (levels.map rung)) t := by
  refine (walk requested).made (fun s levels t => Made s (purchases (requested - s.spent) (levels.map rung)) t) ?_ ?_ ?_ h
  · exact fun s => ⟨rfl, rfl, rfl, rfl, rfl⟩
  · intro level levels s hstop
    rw [purchases_of_le hstop]
    exact ⟨rfl, rfl, rfl, rfl, rfl⟩
  · intro level levels s t _ hstop hmade
    rw [spent_took] at hmade
    have hnext := Made.consume hmade
    rw [← Nat.sub_sub] at hnext
    rw [List.map_cons, purchases_cons (not_le.mp hstop)]
    split_ifs at hnext ⊢ with hzero
    · rwa [hzero, Nat.sub_zero] at hnext
    · exact hnext

end Purchase

variable {value : Uint256} {asks : List PriceLevel} {quote : MarketBuyQuote}

structure BuyQuoteOf (value : Uint256) (takes : List Rung) (quote : MarketBuyQuote) : Prop where
  requested : quote.requestedValueWei = value
  spent : quote.spentValueWei.toNat = worth protocolScale takes
  unspent : quote.spentValueWei.toNat + quote.unspentValueWei.toNat = value.toNat
  shares : quote.sharesWei.toNat = depth takes
  vwap : quote.vwapPriceWei.toNat = cost takes / depth takes
  worst : quote.worstPriceWei.toNat = (takes.map Rung.price).getLastD 0
  levels : quote.levelsConsumed = takes.length
  complete : quote.complete = true ↔ value.toNat ≤ worth protocolScale takes + 1

theorem average_eq (takes : List Rung) : (if depth takes > 0 then cost takes / depth takes else 0) = cost takes / depth takes := by
  split_ifs with h
  · rfl
  · rw [Nat.eq_zero_of_not_pos h, Nat.div_zero]

theorem worth_purchases_le (budget : ℕ) (rungs : List Rung) : worth protocolScale (purchases budget rungs) ≤ budget := by
  rw [worth_purchases]
  exact worth_spend_le protocolScale_pos 1 budget rungs

theorem quoteMarketBuyValue_ok (h : quoteMarketBuyValue value asks = .ok quote) :
    BuyQuoteOf value (purchases value.toNat (asks.map rung)) quote := by
  unfold quoteMarketBuyValue at h
  rw [integer_eq] at h
  obtain ⟨requested, hrequested, h⟩ := Result.bind_eq_ok.mp h
  cases hrequested
  split_ifs at h
  · cases h
  obtain ⟨bought, hloop, h⟩ := Result.bind_eq_ok.mp h
  obtain ⟨hspent, hshares, hweighted, hworst, hlevels⟩ := Purchase.loop_made hloop
  simp only [Nat.sub_zero, Nat.zero_add] at hspent hshares hweighted hworst hlevels
  have hle := worth_purchases_le value.toNat (asks.map rung)
  rw [hspent, hshares, hweighted, hworst, hlevels, average_eq, ← Nat.cast_sub hle] at h
  generalize purchases value.toNat (asks.map rung) = takes at h hle
  dsimp only at h
  split at h
  · rename_i spent unspent shares vwap worst h1 h2 h3 h4 h5
    cases h
    refine ⟨rfl, uint256_eq_ok.mp h1, ?_, uint256_eq_ok.mp h3, uint256_eq_ok.mp h4, uint256_eq_ok.mp h5, rfl, ?_⟩
    · rw [uint256_eq_ok.mp h1, uint256_eq_ok.mp h2]
      omega
    · rw [decide_eq_true_iff]
      omega
  · cases h

theorem purchases_prices_sublist (budget : ℕ) (rungs : List Rung) :
    ((purchases budget rungs).map Rung.price).Sublist (rungs.map Rung.price) := by
  rw [purchases]
  exact (List.filter_sublist.map _).trans (spend_taken protocolScale_pos 1 budget rungs).price_sublist

theorem depth_purchases_le (budget : ℕ) (rungs : List Rung) : depth (purchases budget rungs) ≤ depth rungs := by
  have hspend := (spend_taken protocolScale_pos 1 budget rungs).depth_le
  refine le_trans ?_ hspend
  rw [purchases, depth, depth]
  exact (List.filter_sublist.map _).sum_le_sum (fun _ _ => Nat.zero_le _)

theorem purchases_front {rungs : List Rung} (hp : ∀ rung ∈ rungs, 0 < rung.price ∧ rung.price ≤ protocolScale) (budget : ℕ) :
    ∃ front rest part, rungs = front ++ rest ∧
      (part = [] ∨ ∃ rung after amount, rest = rung :: after ∧ 0 < amount ∧ amount < rung.amount ∧
        part = [⟨rung.price, amount⟩]) ∧
      purchases budget rungs = front.filter (fun rung => 1 ≤ rung.worth protocolScale) ++ part := by
  obtain ⟨front, rest, hsplit, hspend | ⟨rung, after, amount, hrest, hamount, hworth, hspend⟩⟩ := spend_front hp budget
  · refine ⟨front, rest, [], hsplit, .inl rfl, ?_⟩
    rw [purchases, hspend, List.append_nil]
    rfl
  · have hpos : 0 < amount := by
      rcases Nat.eq_zero_or_pos amount with rfl | hpos
      · rw [Rung.worth, mul_zero, Nat.zero_div] at hworth
        exact absurd hworth (lt_irrefl 0)
      · exact hpos
    refine ⟨front, rest, [⟨rung.price, amount⟩], hsplit, .inr ⟨rung, after, amount, hrest, hpos, hamount, rfl⟩, ?_⟩
    rw [purchases, hspend, List.filter_append, List.filter_cons_of_pos (by simpa using hworth), List.filter_nil]
    rfl

theorem valid_prices (hvalid : ∀ level ∈ asks, ValidLevel level) :
    ∀ entry ∈ asks.map rung, 0 < entry.price ∧ entry.price ≤ protocolScale := by
  intro entry hm
  obtain ⟨level, hl, rfl⟩ := List.mem_map.mp hm
  exact ⟨(hvalid level hl).1, (hvalid level hl).2.1⟩

theorem sorted_prices {r : ℕ → ℕ → Prop} {levels : List PriceLevel}
    (h : levels.Pairwise (fun left right => r (priceWei left.price) (priceWei right.price))) :
    ((levels.map rung).map Rung.price).Pairwise r := by
  rw [List.map_map, List.pairwise_map]
  exact h

theorem buy_quotes_exact (hvalid : ∀ level ∈ asks, ValidLevel level)
    (hsorted : asks.Pairwise (fun left right => priceWei left.price ≤ priceWei right.price))
    (h : quoteMarketBuyValue value asks = .ok quote) :
    quote.spentValueWei.toNat + quote.unspentValueWei.toNat = value.toNat ∧
      (∃ front rest part, asks.map rung = front ++ rest ∧
        (part = [] ∨ ∃ rung after amount, rest = rung :: after ∧ 0 < amount ∧ amount < rung.amount ∧
          part = [⟨rung.price, amount⟩]) ∧
        ∃ taken, taken = front.filter (fun rung => 1 ≤ rung.worth protocolScale) ++ part ∧
          quote.sharesWei.toNat = depth taken ∧ depth taken ≤ depth (asks.map rung) ∧
          quote.spentValueWei.toNat = worth protocolScale taken ∧ quote.levelsConsumed = taken.length ∧
          (0 < quote.sharesWei.toNat →
            quote.spentValueWei.toNat * protocolScale ≤ cost taken ∧
            cost taken < (quote.spentValueWei.toNat + quote.levelsConsumed) * protocolScale ∧
            quote.vwapPriceWei.toNat = cost taken / depth taken ∧
            (∀ first ∈ taken.head?, first.price ≤ quote.vwapPriceWei.toNat) ∧
            (∀ level ∈ asks.head?, priceWei level.price ≤ quote.vwapPriceWei.toNat) ∧
            quote.vwapPriceWei.toNat ≤ quote.worstPriceWei.toNat ∧
            ∃ last ∈ taken.getLast?, quote.worstPriceWei.toNat = last.price)) ∧
      (quote.complete = true ↔ value.toNat - 1 ≤ worth protocolScale (asks.map rung)) := by
  have hq := quoteMarketBuyValue_ok h
  have hprices := valid_prices hvalid
  have hrungs := sorted_prices hsorted
  refine ⟨hq.unspent, ?_, ?_⟩
  · obtain ⟨front, rest, part, hsplit, hpart, htaken⟩ := purchases_front hprices value.toNat
    refine ⟨front, rest, part, hsplit, hpart, _, htaken, hq.shares, depth_purchases_le _ _, hq.spent, hq.levels, ?_⟩
    rw [hq.shares, hq.spent, hq.levels, hq.vwap, hq.worst]
    have hall : ∀ level ∈ asks.head?, ∀ take ∈ purchases value.toNat (asks.map rung), priceWei level.price ≤ take.price := by
      intro level hl take hm
      have hmem := (purchases_prices_sublist value.toNat (asks.map rung)).subset (List.mem_map_of_mem hm)
      have hfirst := (rel_first_last Nat.le_refl hrungs 0).1
      rw [List.head?_map, List.head?_map, Option.mem_def.mp hl] at hfirst
      exact hfirst _ rfl _ hmem
    have horder := hrungs.sublist (purchases_prices_sublist value.toNat (asks.map rung))
    generalize purchases value.toNat (asks.map rung) = taken at hall horder
    intro hdepth
    have hne : taken ≠ [] := by
      rintro rfl
      exact absurd hdepth (lt_irrefl 0)
    obtain ⟨hfirst, hlast⟩ := rel_first_last Nat.le_refl horder 0
    refine ⟨worth_mul_le_cost, cost_lt_worth_mul protocolScale_pos hne, rfl, ?_, ?_, ?_, ?_⟩
    · intro first hf
      refine le_average hdepth (fun take hm => ?_)
      refine hfirst first.price ?_ take.price (List.mem_map_of_mem hm)
      rw [List.head?_map, Option.mem_def.mp hf]
      rfl
    · exact fun level hl => le_average hdepth (hall level hl)
    · exact average_le (fun take hm => hlast take.price (List.mem_map_of_mem hm))
    · refine ⟨taken.getLast hne, List.getLast?_eq_getLast_of_ne_nil hne, ?_⟩
      rw [List.getLastD_eq_getLast?, List.getLast?_map, List.getLast?_eq_getLast_of_ne_nil hne]
      rfl
  · rw [hq.complete, worth_purchases, spend_complete hprices]
    omega

def sampleAsks : List PriceLevel := [⟨.cents 50 (by decide), 10, 0⟩, ⟨.cents 75 (by decide), 10, 0⟩]

theorem sampleAsks_valid : (∀ level ∈ sampleAsks, ValidLevel level) ∧
    sampleAsks.Pairwise (fun left right => priceWei left.price ≤ priceWei right.price) := by
  unfold ValidLevel
  decide

def tenTokens : Uint256 := .ofNat 10000000000000000000 (by decide)

theorem ten_tokens_buy_two_levels : ∃ quote, quoteMarketBuyValue tenTokens sampleAsks = .ok quote ∧
    quote.spentValueWei.toNat = 9999999999999999999 ∧
    quote.spentValueWei.toNat + quote.unspentValueWei.toNat = tenTokens.toNat ∧
    (quote.complete = true ↔ tenTokens.toNat - 1 ≤ worth protocolScale (sampleAsks.map rung)) := by
  have hspent : (quoteMarketBuyValue tenTokens sampleAsks).map (fun quote => quote.spentValueWei.toNat) =
      .ok 9999999999999999999 := by decide
  obtain ⟨quote, hq, hspent⟩ := Result.ok_of_map hspent
  obtain ⟨hsum, -, hcomplete⟩ := buy_quotes_exact sampleAsks_valid.1 sampleAsks_valid.2 hq
  exact ⟨quote, hq, hspent, hsum, hcomplete⟩

theorem purchases_mono {rungs : List Rung} (hp : ∀ rung ∈ rungs, 0 < rung.price ∧ rung.price ≤ protocolScale)
    {less more : ℕ} (hle : less ≤ more) : Taken (purchases less rungs) (purchases more rungs) := by
  induction rungs generalizing less more with
  | nil => exact .nil _
  | cons rung rest ih =>
    obtain ⟨hpos, hunit⟩ := hp rung List.mem_cons_self
    have hrest : ∀ other ∈ rest, 0 < other.price ∧ other.price ≤ protocolScale :=
      fun other hm => hp other (List.mem_cons_of_mem _ hm)
    rcases Nat.lt_or_ge 1 less with hmore | hstop
    · rw [purchases_cons hmore, purchases_cons (hmore.trans_le hle)]
      rcases Nat.lt_or_ge less (rung.worth protocolScale) with hpart | hwhole
      · -- the smaller budget ends here, with a part that the larger one does not fall short of
        have hleft := budget_le_bought hpos hunit hpart
        have hamount : (bought protocolScale less rung).amount ≤ (bought protocolScale more rung).amount := by
          rcases Nat.lt_or_ge more (rung.worth protocolScale) with hpart' | hwhole'
          · rw [bought_of_lt hpart, bought_of_lt hpart']
            exact Nat.div_le_div_right (Nat.mul_le_mul_right _ hle)
          · rw [bought_of_le hwhole']
            exact bought_amount_le protocolScale_pos less rung
        have hprice : (bought protocolScale less rung).price = (bought protocolScale more rung).price := by
          rw [bought_price, bought_price]
        have hworth : (bought protocolScale less rung).worth protocolScale ≤ (bought protocolScale more rung).worth protocolScale := by
          rw [Rung.worth, Rung.worth, hprice]
          exact Nat.div_le_div_right (Nat.mul_le_mul_left _ hamount)
        rw [if_neg (by omega), if_neg (by omega), purchases_of_le (by omega)]
        exact .cons hprice hamount (.nil _)
      · rw [bought_of_le hwhole, bought_of_le (hwhole.trans hle)]
        split_ifs
        · exact ih hrest hle
        · exact .cons rfl (le_refl _) (ih hrest (Nat.sub_le_sub_right hle _))
    · rw [purchases_of_le hstop]
      exact .nil _

theorem larger_budget_buys_more {value' : Uint256} {quote' : MarketBuyQuote} (hvalid : ∀ level ∈ asks, ValidLevel level)
    (hsorted : asks.Pairwise (fun left right => priceWei left.price ≤ priceWei right.price))
    (hle : value.toNat ≤ value'.toNat) (h : quoteMarketBuyValue value asks = .ok quote)
    (h' : quoteMarketBuyValue value' asks = .ok quote') :
    quote.sharesWei.toNat ≤ quote'.sharesWei.toNat ∧ quote.spentValueWei.toNat ≤ quote'.spentValueWei.toNat ∧
      quote.levelsConsumed ≤ quote'.levelsConsumed ∧ quote.worstPriceWei.toNat ≤ quote'.worstPriceWei.toNat := by
  have hq := quoteMarketBuyValue_ok h
  have hq' := quoteMarketBuyValue_ok h'
  have htaken := purchases_mono (valid_prices hvalid) hle
  refine ⟨?_, ?_, ?_, ?_⟩
  · rw [hq.shares, hq'.shares]
    exact htaken.depth_le
  · rw [hq.spent, hq'.spent]
    exact htaken.worth_le _
  · rw [hq.levels, hq'.levels]
    exact htaken.length_le
  · have horder := (sorted_prices hsorted).sublist (purchases_prices_sublist value'.toNat (asks.map rung))
    rw [hq.worst, hq'.worst]
    -- the last price of the smaller purchase is one of the larger one
    rcases htaken.last_price with hnone | hmem
    · rw [hnone]
      exact Nat.zero_le _
    · exact (rel_first_last Nat.le_refl horder 0).2 _ hmem

def twentyTokens : Uint256 := ⟨ascii "20000000000000000000", by decide, by decide, by decide⟩

theorem twenty_tokens_buy_more : ∃ quote quote', quoteMarketBuyValue tenTokens sampleAsks = .ok quote ∧
    quoteMarketBuyValue twentyTokens sampleAsks = .ok quote' ∧ quote.levelsConsumed = 2 ∧ quote'.sharesWei = twentyTokens ∧
    quote.sharesWei.toNat ≤ quote'.sharesWei.toNat := by
  have hless : (quoteMarketBuyValue tenTokens sampleAsks).map MarketBuyQuote.levelsConsumed = .ok 2 := by decide +kernel
  have hmore : (quoteMarketBuyValue twentyTokens sampleAsks).map MarketBuyQuote.sharesWei = .ok twentyTokens := by
    decide +kernel
  obtain ⟨quote, hq, hlevels⟩ := Result.ok_of_map hless
  obtain ⟨quote', hq', hall⟩ := Result.ok_of_map hmore
  obtain ⟨hshares, -⟩ := larger_budget_buys_more sampleAsks_valid.1 sampleAsks_valid.2 (by decide) hq hq'
  exact ⟨quote, quote', hq, hq', hlevels, hall, hshares⟩

end PredictFun.Analysis
