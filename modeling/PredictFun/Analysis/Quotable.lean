import PredictFun.Analysis.RoundTrip
import PredictFun.Codec.WellFormed

namespace PredictFun.Analysis

open Base Ladder Codec

section

variable {price other : Price}

theorem protocolScale_eq : protocolScale = 10 ^ FixedDecimal.maxScale := by decide

theorem priceWei_eq (price : Price) :
    priceWei price = price.ticks.toNat * 10 ^ (FixedDecimal.maxScale - price.precision.toNat) := by
  have hscale : price.tickScale.toNat = 10 ^ price.precision.toNat := by
    rw [price.tickScale_eq, toNat_powersOfTen price.precision_le]
  rw [priceWei, hscale, protocolScale_eq, Nat.mul_div_assoc _ (pow_dvd_pow 10 price.precision_le),
    Nat.pow_div price.precision_le (by norm_num)]

theorem priceWei_le (price : Price) : priceWei price ≤ protocolScale :=
  Nat.div_le_of_le_mul (Nat.mul_le_mul_right _ (BitVec.le_def.mp price.ticks_le))

theorem priceWei_eq_zero : priceWei price = 0 ↔ price.ticks = 0 := by
  have hpow : 10 ^ (FixedDecimal.maxScale - price.precision.toNat) ≠ 0 := pow_ne_zero _ (by norm_num)
  rw [priceWei_eq, Nat.mul_eq_zero, or_iff_left hpow]
  exact ⟨fun h => BitVec.eq_of_toNat_eq h, fun h => by rw [h]; rfl⟩

theorem priceWei_mono (hp : price.precision = other.precision) (h : price.ticks ≤ other.ticks) :
    priceWei price ≤ priceWei other := by
  rw [priceWei_eq, priceWei_eq, hp]
  exact Nat.mul_le_mul_right _ (BitVec.le_def.mp h)

theorem quantityWei_pos {quantity : FixedDecimal} (h : 0 < quantity.units) : 0 < quantityWei quantity :=
  Nat.mul_pos (BitVec.lt_def.mp h) (Nat.pow_pos (by norm_num))

theorem quantityWei_lt {quantity : FixedDecimal} (h : quantity.scale.toNat ≤ FixedDecimal.maxScale) :
    quantityWei quantity < 2 ^ 64 * protocolScale := by
  have hdiff : (BitVec.ofNat 8 FixedDecimal.maxScale - quantity.scale).toNat ≤ FixedDecimal.maxScale := by
    rw [BitVec.toNat_sub_of_le (BitVec.le_def.mpr h)]
    exact Nat.sub_le _ _
  have hpower : powerOfTen (BitVec.ofNat 8 FixedDecimal.maxScale - quantity.scale) ≤ protocolScale := by
    rw [protocolScale_eq]
    exact Nat.pow_le_pow_right (by norm_num) hdiff
  calc _ ≤ quantity.units.toNat * protocolScale := Nat.mul_le_mul_left _ hpower
    _ < _ := Nat.mul_lt_mul_of_pos_right quantity.units.isLt protocolScale_pos

theorem complement_ticks_eq_zero : price.complement.ticks = 0 ↔ price.ticks = price.tickScale := by
  have h := price.ticks_le
  change price.tickScale - price.ticks = 0 ↔ _
  constructor <;> intro he <;> bv_omega

end

def InvalidBook {α : Type} (result : Result α) : Prop := ∃ error, result = .error error ∧ error.code = .invalidOrderbook

instance {α : Type} (result : Result α) : Decidable (InvalidBook result) :=
  match result with
  | .ok _ => isFalse (fun h => by obtain ⟨_, h, _⟩ := h; cases h)
  | .error error =>
    if h : error.code = .invalidOrderbook then isTrue ⟨error, rfl, h⟩
    else isFalse (fun ⟨_, he, hcode⟩ => h (Except.error.inj he ▸ hcode))

section

variable {requested : ℕ} {levels : List PriceLevel}

theorem not_invalidBook_ok {α : Type} {result : Result α} {value : α} (h : result = .ok value) : ¬InvalidBook result := by
  rintro ⟨error, herror, -⟩
  rw [h] at herror
  cases herror

theorem invalidBook_bind {α β : Type} {first : Result α} {next : α → Result β} (hnext : ∀ a, ¬InvalidBook (next a)) :
    InvalidBook (first >>= next) ↔ InvalidBook first := by
  cases first with
  | error error =>
    constructor
    · rintro ⟨_, ⟨⟩, hcode⟩
      exact ⟨error, rfl, hcode⟩
    · rintro ⟨_, ⟨⟩, hcode⟩
      exact ⟨error, rfl, hcode⟩
  | ok a => exact iff_of_false (hnext a) (not_invalidBook_ok rfl)

theorem Purchase.loop_valid (hvalid : ∀ level ∈ levels, ValidLevel level)
    (hsorted : levels.Pairwise (fun left right => priceWei left.price ≤ priceWei right.price)) {s : Purchase}
    (hprevious : ∀ level ∈ levels, s.previousPrice ≤ priceWei level.price) : ∃ t, loop requested levels s = .ok t := by
  refine (walk requested).succeeds (fun levels s => (∀ level ∈ levels, ValidLevel level) ∧
    levels.Pairwise (fun left right => priceWei left.price ≤ priceWei right.price) ∧
    ∀ level ∈ levels, s.previousPrice ≤ priceWei level.price) ?_ ?_ ?_
  · rintro level levels s ⟨hvalid, -, hprevious⟩
    exact ⟨hvalid level List.mem_cons_self, hprevious level List.mem_cons_self⟩
  · rintro level levels s ⟨hvalid, hsorted, -⟩
    obtain ⟨hfirst, hrest⟩ := List.pairwise_cons.mp hsorted
    refine ⟨fun other hm => hvalid other (List.mem_cons_of_mem _ hm), hrest, ?_⟩
    intro other hm
    rw [previousPrice_took]
    exact hfirst other hm
  · exact ⟨hvalid, hsorted, hprevious⟩

theorem Sale.loop_valid (hvalid : ∀ level ∈ levels, ValidLevel level)
    (hsorted : levels.Pairwise (fun left right => priceWei right.price ≤ priceWei left.price)) {s : Sale}
    (hprevious : ∀ level ∈ levels, priceWei level.price ≤ s.previousPrice) : ∃ t, loop requested levels s = .ok t := by
  refine (walk requested).succeeds (fun levels s => (∀ level ∈ levels, ValidLevel level) ∧
    levels.Pairwise (fun left right => priceWei right.price ≤ priceWei left.price) ∧
    ∀ level ∈ levels, priceWei level.price ≤ s.previousPrice) ?_ ?_ ?_
  · rintro level levels s ⟨hvalid, -, hprevious⟩
    exact ⟨hvalid level List.mem_cons_self, hprevious level List.mem_cons_self⟩
  · rintro level levels s ⟨hvalid, hsorted, -⟩
    obtain ⟨hfirst, hrest⟩ := List.pairwise_cons.mp hsorted
    exact ⟨fun other hm => hvalid other (List.mem_cons_of_mem _ hm), hrest, hfirst⟩
  · exact ⟨hvalid, hsorted, hprevious⟩

theorem Sale.loop_invalid {s : Sale} (hzero : ∃ level ∈ levels, priceWei level.price = 0)
    (hmore : depth (levels.map rung) + 1 < requested - s.sold) : InvalidBook (loop requested levels s) := by
  induction levels generalizing s with
  | nil => simp at hzero
  | cons level levels ih =>
    by_cases hvalid : ValidLevel level ∧ priceWei level.price ≤ s.previousPrice
    · rw [List.map_cons, depth_cons] at hmore
      have hquantity : (rung level).amount = quantityWei level.quantity := rfl
      rw [loop_cons hvalid.1 hvalid.2, if_neg (by omega), min_eq_left (by omega)]
      refine ih ?_ ?_
      · obtain ⟨other, hm, hother⟩ := hzero
        rcases List.mem_cons.mp hm with rfl | hm
        · exact absurd hother hvalid.1.1.ne'
        · exact ⟨other, hm, hother⟩
      · change _ < requested - (s.sold + quantityWei level.quantity)
        omega
    · rw [loop]
      dsimp only
      by_cases hlevel : priceWei level.price = 0 ∨ priceWei level.price > protocolScale ∨ quantityWei level.quantity = 0
      · rw [if_pos hlevel]
        exact ⟨_, rfl, rfl⟩
      · unfold ValidLevel at hvalid
        rw [if_neg hlevel, if_pos (by omega)]
        exact ⟨_, rfl, rfl⟩

end

section

variable {value : Uint256} {precision : BitVec 8} {levels : List PriceLevel}

theorem quoteMarketBuyValue_invalid (hvalue : 0 < value.toNat) :
    InvalidBook (quoteMarketBuyValue value levels) ↔ InvalidBook (Purchase.loop value.toNat levels {}) := by
  unfold quoteMarketBuyValue
  rw [integer_eq]
  change InvalidBook (if value.toNat = 0 then _ else _) ↔ _
  rw [if_neg hvalue.ne']
  refine invalidBook_bind (fun bought => ?_)
  dsimp only
  split
  · exact not_invalidBook_ok rfl
  · rintro ⟨error, ⟨⟩, ⟨⟩⟩

theorem quoteMarketSellShares_invalid (hvalue : 0 < value.toNat) :
    InvalidBook (quoteMarketSellShares value levels) ↔ InvalidBook (Sale.loop value.toNat levels {}) := by
  unfold quoteMarketSellShares
  rw [integer_eq]
  change InvalidBook (if value.toNat = 0 then _ else _) ↔ _
  rw [if_neg hvalue.ne']
  refine invalidBook_bind (fun made => ?_)
  dsimp only
  split
  · exact not_invalidBook_ok rfl
  · rintro ⟨error, ⟨⟩, ⟨⟩⟩

theorem side_valid {ascending : Bool} (h : Side ascending precision levels) {level : PriceLevel} (hm : level ∈ levels)
    (hne : level.price.ticks ≠ 0) : ValidLevel level :=
  ⟨Nat.pos_of_ne_zero (fun hzero => hne (priceWei_eq_zero.mp hzero)), priceWei_le _, quantityWei_pos (h.positive level hm)⟩

theorem side_depth {ascending : Bool} (h : Side ascending precision levels) : depth (levels.map rung) + 2 < 2 ^ 256 := by
  have hnodup : (levels.map (fun level => level.price.ticks)).Nodup := by
    refine List.pairwise_map.mpr (h.sorted.imp ?_)
    intro left right hbefore heq
    cases ascending with
    | true => exact absurd hbefore (by rw [Before, if_pos rfl, heq]; exact BitVec.lt_irrefl _)
    | false => exact absurd hbefore (by rw [Before, if_neg (by simp), heq]; exact BitVec.lt_irrefl _)
  have hlength : levels.length ≤ 2 ^ 64 := by
    have hcard := (hnodup.map BitVec.toFin_injective).length_le_card
    rwa [List.length_map, List.length_map, Fintype.card_fin] at hcard
  have hdepth : depth (levels.map rung) ≤ levels.length * (2 ^ 64 * protocolScale) := by
    have hsum := List.sum_le_card_nsmul ((levels.map rung).map Rung.amount) (2 ^ 64 * protocolScale) (by
      intro amount hm
      simp only [List.map_map, List.mem_map] at hm
      obtain ⟨level, hm, rfl⟩ := hm
      exact (quantityWei_lt (h.scale_le level hm)).le)
    rwa [List.length_map, List.length_map, smul_eq_mul] at hsum
  have hbound := Nat.mul_le_mul_right (2 ^ 64 * protocolScale) hlength
  have hscale : 2 ^ 64 * (2 ^ 64 * protocolScale) + 2 < 2 ^ 256 := by decide
  omega

theorem buy_invalid_iff (h : Side true precision levels) (hvalue : 0 < value.toNat) :
    InvalidBook (quoteMarketBuyValue value levels) ↔ ∃ level ∈ levels, level.price.ticks = 0 := by
  rw [quoteMarketBuyValue_invalid hvalue]
  constructor
  · intro hinvalid
    by_contra hnone
    push Not at hnone
    have hsorted : levels.Pairwise (fun left right => priceWei left.price ≤ priceWei right.price) := by
      refine h.sorted.imp_of_mem ?_
      intro left right hl hr hbefore
      exact priceWei_mono ((h.precision_eq left hl).trans (h.precision_eq right hr).symm) (BitVec.le_of_lt hbefore)
    obtain ⟨bought, hloop⟩ : ∃ bought, Purchase.loop value.toNat levels {} = .ok bought :=
      Purchase.loop_valid (fun level hm => side_valid h hm (hnone level hm)) hsorted (fun level _ => Nat.zero_le _)
    exact not_invalidBook_ok hloop hinvalid
  · rintro ⟨level, hm, hzero⟩
    cases levels with
    | nil => simp at hm
    | cons first rest =>
      have hfirst : priceWei first.price = 0 := by
        rcases List.mem_cons.mp hm with rfl | hm
        · exact priceWei_eq_zero.mpr hzero
        · have hbefore : first.price.ticks < level.price.ticks := (List.pairwise_cons.mp h.sorted).1 level hm
          rw [hzero] at hbefore
          exact absurd hbefore (BitVec.not_lt_zero)
      rw [Purchase.loop]
      dsimp only
      rw [if_pos (.inl hfirst)]
      exact ⟨_, rfl, rfl⟩

theorem sell_invalid_iff (h : Side false precision levels) :
    (∀ shares : Uint256, 0 < shares.toNat → ¬InvalidBook (quoteMarketSellShares shares levels)) ↔
      ∀ level ∈ levels, level.price.ticks ≠ 0 := by
  constructor
  · intro hnever level hm hzero
    obtain ⟨shares, -, hshares⟩ := Uint256.parse_decimalText (side_depth h)
    have hpos : 0 < shares.toNat := by omega
    refine hnever shares hpos ((quoteMarketSellShares_invalid hpos).mpr (Sale.loop_invalid ?_ ?_))
    · exact ⟨level, hm, priceWei_eq_zero.mpr hzero⟩
    · rw [hshares]
      change _ < _ - 0
      omega
  · intro hnone shares hpos hinvalid
    have hsorted : levels.Pairwise (fun left right => priceWei right.price ≤ priceWei left.price) := by
      refine h.sorted.imp_of_mem ?_
      intro left right hl hr hbefore
      exact priceWei_mono ((h.precision_eq right hr).trans (h.precision_eq left hl).symm) (BitVec.le_of_lt hbefore)
    obtain ⟨made, hloop⟩ : ∃ made, Sale.loop shares.toNat levels {} = .ok made :=
      Sale.loop_valid (fun level hm => side_valid h hm (hnone level hm)) hsorted
        (fun level _ => (priceWei_le _).trans (Nat.le_succ _))
    exact not_invalidBook_ok hloop ((quoteMarketSellShares_invalid hpos).mp hinvalid)

end

variable {reader : BookReader} {book : Orderbook}

/-- A decoded book can be quoted but for its levels at the ends of the price range. -/
theorem decoded_books_quotable (h : reader.Decodes book) :
    (∀ value : Uint256, 0 < value.toNat →
      (InvalidBook (quoteMarketBuyValue value book.yesAsks) ↔ ∃ ask ∈ book.yesAsks, ask.price.ticks = 0)) ∧
    (∀ value : Uint256, 0 < value.toNat →
      (InvalidBook (quoteMarketBuyValue value (deriveNoBook book).noAsks) ↔
        ∃ bid ∈ book.yesBids, bid.price.ticks = bid.price.tickScale)) ∧
    ((∀ shares : Uint256, 0 < shares.toNat → ¬InvalidBook (quoteMarketSellShares shares book.yesBids)) ↔
      ∀ bid ∈ book.yesBids, bid.price.ticks ≠ 0) ∧
    ((∀ shares : Uint256, 0 < shares.toNat → ¬InvalidBook (quoteMarketSellShares shares (deriveNoBook book).noBids)) ↔
      ∀ ask ∈ book.yesAsks, ask.price.ticks ≠ ask.price.tickScale) := by
  obtain ⟨wire, precision, limits, h⟩ := h.converted
  obtain ⟨hasks, hbids, -⟩ := BookReader.convertOrderbook_sides h
  refine ⟨fun value hv => buy_invalid_iff hasks hv, fun value hv => ?_, sell_invalid_iff hbids, ?_⟩
  · rw [deriveNoBook, buy_invalid_iff hbids.complement hv]
    simp only [List.mem_map, exists_exists_and_eq_and, PriceLevel.complement, complement_ticks_eq_zero]
  · rw [deriveNoBook, sell_invalid_iff hasks.complement]
    simp only [List.forall_mem_map, PriceLevel.complement, ne_eq, complement_ticks_eq_zero]

theorem sample_book_quotable : BookReader.sampleReader.Decodes BookReader.sampleBook ∧
    ¬InvalidBook (quoteMarketBuyValue tenTokens BookReader.sampleBook.yesAsks) ∧
    ∀ shares : Uint256, 0 < shares.toNat → ¬InvalidBook (quoteMarketSellShares shares BookReader.sampleBook.yesBids) := by
  have hdecodes : BookReader.sampleReader.Decodes BookReader.sampleBook := ⟨[], 2, {}, .inr (by decide)⟩
  obtain ⟨hasks, -, hbids, -⟩ := decoded_books_quotable hdecodes
  refine ⟨hdecodes, fun hinvalid => ?_, hbids.mpr (by decide)⟩
  exact absurd ((hasks tenTokens (by decide)).mp hinvalid) (by decide)

def freeReader : BookReader :=
  { BookReader.sampleReader with
    book := fun _ => .ok ⟨some [(ascii "0", ascii "1")], some [], none, some 7, none, none, some 1⟩ }

def freeBook : Orderbook :=
  { BookReader.sampleBook with
    yesBids := []
    yesAsks := [⟨.cents 0 (by decide), 1, 0⟩] }

theorem free_ask_not_quotable : freeReader.Decodes freeBook ∧ 0 < tenTokens.toNat ∧
    InvalidBook (quoteMarketBuyValue tenTokens freeBook.yesAsks) :=
  ⟨⟨[], 2, {}, .inr (by decide)⟩, by decide, by decide +kernel⟩

end PredictFun.Analysis
