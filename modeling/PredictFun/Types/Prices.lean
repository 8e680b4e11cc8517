import PredictFun.Types.DecimalText

namespace PredictFun

open Base

namespace FixedDecimal

variable {decimal : FixedDecimal} {places : BitVec 8}

theorem value_eq_unitsAt (h : decimal.scale.toNat ≤ places.toNat) :
    decimal.value = decimal.unitsAt places.toNat / 10 ^ places.toNat := by
  have hsplit : (10 : ℚ) ^ places.toNat = 10 ^ (places.toNat - decimal.scale.toNat) * 10 ^ decimal.scale.toNat := by
    rw [← pow_add, Nat.sub_add_cancel h]
  rw [value, unitsAt, hsplit]
  push_cast
  field_simp

theorem scale_le_iff (hc : decimal.Canonical) :
    decimal.scale.toNat ≤ places.toNat ↔ ∃ n : ℤ, decimal.value = n / 10 ^ places.toNat := by
  constructor
  · intro h
    exact ⟨(decimal.unitsAt places.toNat : ℕ), by rw [value_eq_unitsAt h, Int.cast_natCast]⟩
  · rintro ⟨n, hn⟩
    have hnonneg : 0 ≤ n := by
      rw [eq_div_iff (by positivity)] at hn
      have hz : (0 : ℚ) ≤ n := by
        rw [← hn, value]
        positivity
      exact_mod_cast hz
    obtain ⟨m, rfl⟩ := Int.eq_ofNat_of_zero_le hnonneg
    rw [Int.cast_natCast] at hn
    exact scale_le_of_value hc hn

theorem rescaleExact_narrow (hc : decimal.Canonical) (hs : decimal.scale.toNat ≤ maxScale)
    (h : places.toNat < decimal.scale.toNat) : ∃ error, decimal.rescaleExact places = .error error := by
  unfold rescaleExact
  have hne : ¬places = decimal.scale := by
    rintro rfl
    exact lt_irrefl _ h
  have hle : ¬places > decimal.scale := by
    rw [gt_iff_lt, BitVec.lt_def]
    omega
  have hmod : decimal.units % powersOfTen (decimal.scale.toNat - places.toNat) ≠ 0 := by
    intro hz
    have hm := congrArg BitVec.toNat hz
    rw [BitVec.toNat_umod, toNat_powersOfTen (by omega)] at hm
    apply hc.elim
    · intro hzero
      rw [hzero] at h
      exact Nat.not_lt_zero _ h
    · intro hd
      exact hd ((dvd_pow_self 10 (by omega)).trans (Nat.dvd_of_mod_eq_zero hm))
  rw [if_neg (by omega), if_neg hne, if_neg hle]
  dsimp only
  rw [if_pos hmod]
  exact ⟨_, rfl⟩

end FixedDecimal

namespace Price

def toString (price : Price) : Bytes := FixedDecimal.toString ⟨price.ticks, price.precision⟩

def value (price : Price) : ℚ := price.ticks.toNat / 10 ^ price.precision.toNat

theorem toNat_tickScale (price : Price) : price.tickScale.toNat = 10 ^ price.precision.toNat := by
  rw [price.tickScale_eq, toNat_powersOfTen price.precision_le]

variable {places : BitVec 8}

theorem pow_precision_lt (h : places.toNat ≤ FixedDecimal.maxScale) : 10 ^ places.toNat < 2 ^ 64 := by
  rw [← toNat_powersOfTen h]
  exact (powersOfTen places.toNat).isLt

theorem fromTicks_ok_iff {ticks : BitVec 64} (hp : places.toNat ≤ FixedDecimal.maxScale) (price : Price) :
    fromTicks ticks places = .ok price ↔ ticks.toNat ≤ 10 ^ places.toNat ∧ price.precision = places ∧ price.ticks = ticks := by
  have hle : ticks ≤ powersOfTen places.toNat ↔ ticks.toNat ≤ 10 ^ places.toNat := by
    rw [BitVec.le_def, toNat_powersOfTen hp]
  rw [fromTicks, dif_pos hp]
  split_ifs with ht
  · constructor
    · rintro ⟨⟩
      exact ⟨hle.mp ht, rfl, rfl⟩
    · rintro ⟨-, hprecision, hticks⟩
      have he : ⟨ticks, places, powersOfTen places.toNat, hp, rfl, ht⟩ = price := eq_of_ticks hprecision.symm hticks.symm
      rw [he]
  · constructor
    · rintro ⟨⟩
    · rintro ⟨hle', -⟩
      exact absurd (hle.mpr hle') ht

theorem parse_ok_iff {text : Bytes} {decimal : FixedDecimal} (h : FixedDecimal.parse text = .ok decimal)
    (hp : places.toNat ≤ FixedDecimal.maxScale) (price : Price) :
    parse text places = .ok price ↔ decimal.scale.toNat ≤ places.toNat ∧ decimal.unitsAt places.toNat ≤ 10 ^ places.toNat ∧
      price.precision = places ∧ price.ticks.toNat = decimal.unitsAt places.toNat := by
  have hten := pow_precision_lt hp
  rw [parse, h]
  dsimp only
  by_cases hs : decimal.scale.toNat ≤ places.toNat
  · rw [FixedDecimal.rescaleExact_eq (BitVec.le_def.mpr hs) hp]
    by_cases hu : decimal.unitsAt places.toNat < 2 ^ 64
    · rw [if_pos hu]
      dsimp only
      have hback : (BitVec.ofNat 64 (decimal.unitsAt places.toNat)).toNat = decimal.unitsAt places.toNat := Nat.mod_eq_of_lt hu
      rw [fromTicks_ok_iff hp, hback, and_iff_right hs, ← BitVec.toNat_inj (x := price.ticks), hback]
    · rw [if_neg hu]
      constructor
      · rintro ⟨⟩
      · rintro ⟨-, hle, -⟩
        omega
  · obtain ⟨error, he⟩ := FixedDecimal.rescaleExact_narrow (FixedDecimal.parse_spec h).2 (FixedDecimal.parse_scale_le h)
      (not_le.mp hs)
    rw [he]
    constructor
    · rintro ⟨⟩
    · rintro ⟨hle, -⟩
      exact absurd hle hs

theorem parse_toString (price : Price) : parse price.toString price.precision = .ok price := by
  obtain ⟨read, hr, hv⟩ := FixedDecimal.parse_toString ⟨price.ticks, price.precision⟩ price.precision_le
  have hscale : read.scale.toNat ≤ price.precision.toNat := FixedDecimal.scale_le_of_value (FixedDecimal.parse_spec hr).2 hv
  have hunits : read.unitsAt price.precision.toNat = price.ticks.toNat := by
    rw [FixedDecimal.value_eq_unitsAt hscale, FixedDecimal.value, div_left_inj' (by positivity)] at hv
    exact_mod_cast hv
  apply (parse_ok_iff hr price.precision_le price).mpr
  refine ⟨hscale, ?_, rfl, hunits.symm⟩
  rw [hunits, ← toNat_tickScale]
  exact BitVec.le_def.mp price.ticks_le

theorem toNat_complement (price : Price) : price.complement.ticks.toNat = 10 ^ price.precision.toNat - price.ticks.toNat := by
  rw [← toNat_tickScale]
  exact BitVec.toNat_sub_of_le price.ticks_le

theorem value_add_complement (price : Price) : price.value + price.complement.value = 1 := by
  have hle := BitVec.le_def.mp price.ticks_le
  rw [toNat_tickScale] at hle
  have hp : price.complement.precision = price.precision := rfl
  rw [value, value, toNat_complement, hp, ← add_div, div_eq_one_iff_eq (by positivity), Nat.cast_sub hle]
  push_cast
  ring

theorem parse_exact_ticks :
    (∀ text (places : BitVec 8) decimal, places.toNat ≤ FixedDecimal.maxScale → FixedDecimal.parse text = .ok decimal →
      ((∃ price, parse text places = .ok price) ↔ 0 ≤ FixedDecimal.denoted text ∧ FixedDecimal.denoted text ≤ 1 ∧
        ∃ n : ℤ, FixedDecimal.denoted text = n / 10 ^ places.toNat) ∧
      ∀ price, parse text places = .ok price →
        price.precision = places ∧ (price.ticks.toNat : ℚ) = FixedDecimal.denoted text * 10 ^ places.toNat) ∧
    ∀ price : Price, parse price.toString price.precision = .ok price ∧ price.complement.complement = price ∧
      price.complement.ticks ≤ price.complement.tickScale ∧ price.complement.precision = price.precision ∧
      price.value + price.complement.value = 1 := by
  constructor
  · intro text places decimal hp h
    obtain ⟨hvalue, hcanonical⟩ := FixedDecimal.parse_spec h
    have hone (hs : decimal.scale.toNat ≤ places.toNat) : decimal.value ≤ 1 ↔ decimal.unitsAt places.toNat ≤ 10 ^ places.toNat := by
      rw [FixedDecimal.value_eq_unitsAt hs, div_le_one (by positivity)]
      exact_mod_cast Iff.rfl
    rw [← hvalue]
    constructor
    · constructor
      · rintro ⟨price, hprice⟩
        obtain ⟨hs, hle, -, -⟩ := (parse_ok_iff h hp price).mp hprice
        refine ⟨?_, (hone hs).mpr hle, (FixedDecimal.scale_le_iff hcanonical).mp hs⟩
        rw [FixedDecimal.value]
        positivity
      · rintro ⟨-, hle, haligned⟩
        have hs := (FixedDecimal.scale_le_iff hcanonical).mpr haligned
        have hunits := (hone hs).mp hle
        have hback : (BitVec.ofNat 64 (decimal.unitsAt places.toNat)).toNat = decimal.unitsAt places.toNat :=
          Nat.mod_eq_of_lt (hunits.trans_lt (pow_precision_lt hp))
        have hticks : BitVec.ofNat 64 (decimal.unitsAt places.toNat) ≤ powersOfTen places.toNat := by
          rw [BitVec.le_def, hback, toNat_powersOfTen hp]
          exact hunits
        exact ⟨⟨_, places, _, hp, rfl, hticks⟩, (parse_ok_iff h hp _).mpr ⟨hs, hunits, rfl, hback⟩⟩
    · intro price hprice
      obtain ⟨hs, -, hprecision, hticks⟩ := (parse_ok_iff h hp price).mp hprice
      refine ⟨hprecision, ?_⟩
      rw [hticks, FixedDecimal.value_eq_unitsAt hs, div_mul_cancel₀ _ (by positivity)]
  · intro price
    exact ⟨parse_toString price, complement_complement price, price.complement.ticks_le, rfl, value_add_complement price⟩

theorem parse_exact_ticks_quarter : ∃ price, parse (ascii "02.50e-1") 2 = .ok price ∧
    (price.ticks.toNat : ℚ) = FixedDecimal.denoted (ascii "02.50e-1") * 10 ^ 2 ∧
    parse price.toString price.precision = .ok price := by
  have hprice : parse (ascii "02.50e-1") 2 = .ok (cents 25 (by decide)) := by decide
  obtain ⟨-, hticks⟩ := parse_exact_ticks.1 (ascii "02.50e-1") 2 ⟨25, 2⟩ (by decide) (by decide)
  exact ⟨_, hprice, (hticks _ hprice).2, (parse_exact_ticks.2 _).1⟩

end Price

end PredictFun
