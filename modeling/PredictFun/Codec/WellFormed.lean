import PredictFun.Codec.Aggregation

namespace PredictFun

namespace Price

variable {left right : Price}

theorem complement_lt (hp : left.precision = right.precision) (h : left.ticks < right.ticks) :
    right.complement.ticks < left.complement.ticks := by
  have hscale : left.tickScale = right.tickScale := by rw [left.tickScale_eq, right.tickScale_eq, hp]
  have hl := left.ticks_le
  have hr := right.ticks_le
  change right.tickScale - right.ticks < left.tickScale - left.ticks
  rw [hscale] at hl ⊢
  bv_omega

end Price

theorem PriceLevel.complement_complement (level : PriceLevel) : level.complement.complement = level := by
  rw [complement, complement, Price.complement_complement]

namespace Codec

open FixedDecimal

structure Side (ascending : Bool) (precision : BitVec 8) (levels : List PriceLevel) : Prop where
  sorted : levels.Pairwise (Before ascending)
  precision_eq : ∀ level ∈ levels, level.price.precision = precision
  positive : ∀ level ∈ levels, 0 < level.quantity.units
  scale_le : ∀ level ∈ levels, level.quantity.scale.toNat ≤ FixedDecimal.maxScale

theorem exactUnits_pos {quantities : List FixedDecimal} {q : FixedDecimal} (hm : q ∈ quantities) (hq : q.units ≠ 0) :
    0 < exactUnits quantities := by
  have hunits : 0 < q.units.toNat := Nat.pos_of_ne_zero (fun h => hq (BitVec.eq_of_toNat_eq h))
  have hat : 0 < q.unitsAt (largestScale quantities) := Nat.mul_pos hunits (Nat.pow_pos (by norm_num))
  exact hat.trans_le (List.single_le_sum (fun _ _ => Nat.zero_le _) _ (List.mem_map_of_mem hm))

theorem Aggregated.side {ascending : Bool} {precision : BitVec 8} {levels book : List PriceLevel}
    (h : Aggregated ascending levels book) (hfits : ¬Overflows levels) (hparsed : Parsed precision levels)
    (hpositive : ∀ level ∈ levels, level.quantity.units ≠ 0) : Side ascending precision book := by
  obtain ⟨sorted, -, entries⟩ := h
  refine ⟨sorted, ?_, ?_, ?_⟩
  · intro entry he
    obtain ⟨⟨level, hm, hprice⟩, -⟩ := entries entry he
    rw [← hprice]
    exact (hparsed level hm).1
  · intro entry he
    obtain ⟨⟨level, hm, hprice⟩, hquantity⟩ := entries entry he
    have hat : level.quantity ∈ quantitiesAt entry.price.ticks levels := by
      rw [quantitiesAt, ← hprice]
      exact List.mem_map_of_mem (List.mem_filter.mpr ⟨hm, by simp⟩)
    have hpos := exactUnits_pos hat (hpositive level hm)
    have hlt : exactUnits (quantitiesAt entry.price.ticks levels) < 2 ^ 64 := by
      by_contra hover
      refine hfits ⟨level, hm, ?_⟩
      rw [hprice]
      omega
    rw [hquantity, total, BitVec.lt_def, BitVec.toNat_ofNat, Nat.mod_eq_of_lt hlt]
    exact hpos
  · intro entry he
    obtain ⟨-, hquantity⟩ := entries entry he
    rw [hquantity, total, BitVec.toNat_ofNat]
    refine (Nat.mod_le _ _).trans (largestScale_le ?_)
    intro q hq
    obtain ⟨level, hm, rfl⟩ := List.mem_map.mp hq
    exact (hparsed level (List.mem_filter.mp hm).1).2

theorem Side.complement {ascending : Bool} {precision : BitVec 8} {levels : List PriceLevel} (h : Side ascending precision levels) :
    Side (!ascending) precision (levels.map PriceLevel.complement) := by
  refine ⟨List.pairwise_map.mpr ?_, ?_, ?_, ?_⟩
  · refine h.sorted.imp_of_mem ?_
    intro left right hl hr hbefore
    have hp : left.price.precision = right.price.precision :=
      (h.precision_eq left hl).trans (h.precision_eq right hr).symm
    cases ascending with
    | true => exact Price.complement_lt hp hbefore
    | false => exact Price.complement_lt hp.symm hbefore
  · intro entry he
    obtain ⟨level, hm, rfl⟩ := List.mem_map.mp he
    exact h.precision_eq level hm
  · intro entry he
    obtain ⟨level, hm, rfl⟩ := List.mem_map.mp he
    exact h.positive level hm
  · intro entry he
    obtain ⟨level, hm, rfl⟩ := List.mem_map.mp he
    exact h.scale_le level hm

namespace BookReader

variable {reader : BookReader} {precision : BitVec 8} {limits : BookDecodeLimits} {book : Orderbook}

theorem convertLevels_side {wire : List WireLevel} {ascending : Bool} {field : Bytes} {levels : List PriceLevel}
    (h : reader.convertLevels wire precision limits ascending field = .ok levels) : Side ascending precision levels := by
  have hlimit : wire.length ≤ limits.maxBookLevelsPerSide.toNat := by
    by_contra hover
    rw [convertLevels, if_pos (not_le.mp hover)] at h
    cases h
  have hrun := h
  rw [convertLevels, if_neg (not_lt.mpr hlimit)] at hrun
  obtain ⟨parsed, hparsed, -⟩ := Result.bind_eq_ok.mp hrun
  have hparses := (mapM_convertLevel 0).mp hparsed
  obtain ⟨hover, hfine⟩ := convertLevels_spec ascending field hlimit hparses
  have hfits : ¬Overflows parsed := by
    intro hno
    rw [hover hno] at h
    cases h
  obtain ⟨book, hbook, haggregated⟩ := hfine hfits
  rw [hbook] at h
  cases h
  refine haggregated.side hfits (Parses.parsed hparses) (fun level hm => ?_)
  obtain ⟨entry, -, -, -, hpositive⟩ := Parses.exists_of_mem hparses hm
  exact hpositive

def Decodes (reader : BookReader) (book : Orderbook) : Prop :=
  ∃ json precision limits, reader.decodeOrderbookResponse json precision limits = .ok book ∨
    reader.decodeOrderbookPayload json precision limits = .ok book

theorem convertOrderbook_sides {wire : WireOrderbook} (h : reader.convertOrderbook wire precision limits = .ok book) :
    Side true precision book.yesAsks ∧ Side false precision book.yesBids ∧ crossed book.yesBids book.yesAsks = false := by
  unfold convertOrderbook at h
  obtain ⟨marketId, -, h⟩ := Result.bind_eq_ok.mp h
  obtain ⟨timestamp, -, h⟩ := Result.bind_eq_ok.mp h
  obtain ⟨wireAsks, -, h⟩ := Result.bind_eq_ok.mp h
  obtain ⟨wireBids, -, h⟩ := Result.bind_eq_ok.mp h
  split_ifs at h
  obtain ⟨asks, hasks, h⟩ := Result.bind_eq_ok.mp h
  obtain ⟨bids, hbids, h⟩ := Result.bind_eq_ok.mp h
  split_ifs at h with hcrossed
  · cases h
  · obtain ⟨last, -, h⟩ := Result.bind_eq_ok.mp h
    obtain ⟨pending, -, h⟩ := Result.bind_eq_ok.mp h
    cases h
    exact ⟨convertLevels_side hasks, convertLevels_side hbids, Bool.eq_false_iff.mpr hcrossed⟩

theorem Decodes.converted (h : reader.Decodes book) :
    ∃ wire precision limits, reader.convertOrderbook wire precision limits = .ok book := by
  obtain ⟨json, precision, limits, h | h⟩ := h
  · unfold decodeOrderbookResponse at h
    split_ifs at h
    · cases h
    · obtain ⟨response, -, h⟩ := Result.bind_eq_ok.mp h
      split at h
      · cases h
      · cases h
      · split at h
        · cases h
        · exact ⟨_, precision, limits, h⟩
  · unfold decodeOrderbookPayload at h
    split_ifs at h
    · cases h
    · obtain ⟨wire, -, h⟩ := Result.bind_eq_ok.mp h
      exact ⟨wire, precision, limits, h⟩

theorem not_crossed {bids asks : List PriceLevel} (h : crossed bids asks = false) :
    ∀ bid ∈ bids.head?, ∀ ask ∈ asks.head?, bid.price.ticks < ask.price.ticks := by
  intro bid hb ask ha
  rw [crossed, Option.mem_def.mp hb, Option.mem_def.mp ha] at h
  exact BitVec.not_le.mp (of_decide_eq_false h)

theorem decoded_books_well_formed (h : reader.Decodes book) :
    book.yesAsks.Pairwise (fun left right => left.price.ticks < right.price.ticks) ∧
      book.yesBids.Pairwise (fun left right => right.price.ticks < left.price.ticks) ∧
      (∀ level ∈ book.yesAsks ++ book.yesBids, 0 < level.quantity.units) ∧
      (∀ bid ∈ book.yesBids.head?, ∀ ask ∈ book.yesAsks.head?, bid.price.ticks < ask.price.ticks) ∧
      (deriveNoBook book).noBids.Pairwise (fun left right => right.price.ticks < left.price.ticks) ∧
      (deriveNoBook book).noAsks.Pairwise (fun left right => left.price.ticks < right.price.ticks) ∧
      (∀ bid ∈ (deriveNoBook book).noBids.head?, ∀ ask ∈ (deriveNoBook book).noAsks.head?,
        bid.price.ticks < ask.price.ticks) ∧
      (((deriveNoBook book).noBids ++ (deriveNoBook book).noAsks).map PriceLevel.quantity : Multiset FixedDecimal) =
        ((book.yesBids ++ book.yesAsks).map PriceLevel.quantity : Multiset FixedDecimal) ∧
      (deriveNoBook { book with yesBids := (deriveNoBook book).noBids, yesAsks := (deriveNoBook book).noAsks }).noBids =
        book.yesBids ∧
      (deriveNoBook { book with yesBids := (deriveNoBook book).noBids, yesAsks := (deriveNoBook book).noAsks }).noAsks =
        book.yesAsks := by
  obtain ⟨wire, precision, limits, h⟩ := h.converted
  obtain ⟨hasks, hbids, hcrossed⟩ := convertOrderbook_sides h
  have hbest := not_crossed hcrossed
  refine ⟨hasks.sorted, hbids.sorted, ?_, hbest, hasks.complement.sorted, hbids.complement.sorted, ?_, ?_, ?_, ?_⟩
  · intro level hm
    rcases List.mem_append.mp hm with hm | hm
    · exact hasks.positive level hm
    · exact hbids.positive level hm
  · intro bid hb ask ha
    rw [deriveNoBook, List.head?_map] at hb ha
    obtain ⟨yesAsk, hyesAsk, rfl⟩ := Option.map_eq_some_iff.mp hb
    obtain ⟨yesBid, hyesBid, rfl⟩ := Option.map_eq_some_iff.mp ha
    have hp : yesBid.price.precision = yesAsk.price.precision :=
      (hbids.precision_eq yesBid (List.mem_of_head? hyesBid)).trans
        (hasks.precision_eq yesAsk (List.mem_of_head? hyesAsk)).symm
    exact Price.complement_lt hp (hbest yesBid hyesBid yesAsk hyesAsk)
  · have hsame (levels : List PriceLevel) :
        (levels.map PriceLevel.complement).map PriceLevel.quantity = levels.map PriceLevel.quantity := by
      rw [List.map_map]
      rfl
    rw [Multiset.coe_eq_coe, deriveNoBook, List.map_append, List.map_append, hsame, hsame]
    exact List.perm_append_comm
  · exact (List.map_map ..).trans (List.map_id'' PriceLevel.complement_complement _)
  · exact (List.map_map ..).trans (List.map_id'' PriceLevel.complement_complement _)

def sampleBook : Orderbook where
  marketId := ⟨7⟩
  updateTimestampMs := 1
  decimalPrecision := 2
  yesBids := [⟨.cents 8 (by decide), 1, 0⟩, ⟨.cents 5 (by decide), 45, 1⟩]
  yesAsks := [⟨.cents 10 (by decide), 1, 0⟩, ⟨.cents 20 (by decide), 375, 2⟩]
  orderCount := none
  lastOrderSettled := none
  settlementsPending := none
  settlementLevelsPending := none

theorem sample_book_well_formed :
    sampleReader.decodeOrderbookPayload [] 2 {} = .ok sampleBook ∧
      (deriveNoBook sampleBook).noBids = [⟨.cents 90 (by decide), 1, 0⟩, ⟨.cents 80 (by decide), 375, 2⟩] ∧
      (deriveNoBook sampleBook).noBids.Pairwise (fun left right => right.price.ticks < left.price.ticks) := by
  obtain ⟨-, -, -, -, hsorted, -⟩ := decoded_books_well_formed (⟨[], 2, {}, .inr (by decide)⟩ : sampleReader.Decodes sampleBook)
  exact ⟨by decide, by decide, hsorted⟩

end BookReader

end Codec

end PredictFun
