import PredictFun.Order.Amounts

namespace PredictFun.Order

open Base Codec

section

variable {value k : ℕ}

theorem length_decimalText_mono {a b : ℕ} (h : a ≤ b) : (decimalText a).length ≤ (decimalText b).length :=
  (length_decimalText_le_iff (length_decimalText_pos b)).mpr (h.trans_lt (lt_pow_length_decimalText b))

theorem lt_length_decimalText (h : 10 ^ k ≤ value) : k < (decimalText value).length :=
  (Nat.pow_lt_pow_iff_right (by norm_num : 1 < 10)).mp (h.trans_lt (lt_pow_length_decimalText value))

theorem pow_le_of_lt_length (hk : 0 < k) (h : k < (decimalText value).length) : 10 ^ k ≤ value := by
  by_contra hlt
  have := (length_decimalText_le_iff hk).mpr (not_le.mp hlt)
  omega

end

variable {value digits k : ℕ}

/-- One formula for all the branches: a short text gives the divisor one. -/
theorem truncateSignificant_eq (value digits : ℕ) :
    truncateSignificant value digits =
      value / 10 ^ ((decimalText value).length - digits) * 10 ^ ((decimalText value).length - digits) := by
  rw [truncateSignificant]
  split_ifs with hzero
  · rw [hzero, Nat.zero_div, Nat.zero_mul]
  · dsimp only
    split_ifs with hshort
    · rw [Nat.sub_eq_zero_of_le hshort, pow_zero, Nat.div_one, Nat.mul_one]
    · rfl

theorem truncateSignificant_le (value digits : ℕ) : truncateSignificant value digits ≤ value := by
  rw [truncateSignificant_eq]
  exact Nat.div_mul_le_self _ _

theorem dvd_truncateSignificant (value digits : ℕ) :
    10 ^ ((decimalText value).length - digits) ∣ truncateSignificant value digits := by
  rw [truncateSignificant_eq]
  exact Nat.dvd_mul_left _ _

theorem pow_dvd_truncateSignificant (h : 10 ^ k ≤ value) : 10 ^ (k + 1 - digits) ∣ truncateSignificant value digits := by
  have hlength := lt_length_decimalText h
  exact (pow_dvd_pow 10 (by omega)).trans (dvd_truncateSignificant value digits)

theorem le_truncateSignificant {multiple : ℕ} (hdvd : 10 ^ ((decimalText value).length - digits) ∣ multiple)
    (hle : multiple ≤ value) : multiple ≤ truncateSignificant value digits := by
  rw [truncateSignificant_eq]
  calc multiple = multiple / 10 ^ ((decimalText value).length - digits) * 10 ^ ((decimalText value).length - digits) :=
        (Nat.div_mul_cancel hdvd).symm
    _ ≤ _ := Nat.mul_le_mul_right _ (Nat.div_le_div_right hle)

theorem pow_le_truncateSignificant (hd : 1 ≤ digits) (hk : 0 < k) (h : k < (decimalText value).length) :
    10 ^ k ≤ truncateSignificant value digits := by
  have hlead : 10 ^ ((decimalText value).length - 1) ≤ truncateSignificant value digits :=
    le_truncateSignificant (pow_dvd_pow 10 (by omega)) (pow_le_of_lt_length (by omega) (by omega))
  exact (Nat.pow_le_pow_right (by norm_num) (by omega)).trans hlead

theorem length_truncateSignificant (hd : 1 ≤ digits) :
    (decimalText (truncateSignificant value digits)).length = (decimalText value).length := by
  apply le_antisymm (length_decimalText_mono (truncateSignificant_le value digits))
  by_contra hlt
  have hshort := length_decimalText_pos (truncateSignificant value digits)
  have hpow := pow_le_truncateSignificant hd hshort (not_le.mp hlt)
  exact absurd (lt_pow_length_decimalText (truncateSignificant value digits)) (not_lt.mpr hpow)

theorem truncateSignificant_idempotent (hd : 1 ≤ digits) :
    truncateSignificant (truncateSignificant value digits) digits = truncateSignificant value digits := by
  rw [truncateSignificant_eq (truncateSignificant value digits), length_truncateSignificant hd]
  exact Nat.div_mul_cancel (dvd_truncateSignificant value digits)

theorem truncateSignificant_mono (hd : 1 ≤ digits) {a b : ℕ} (h : a ≤ b) :
    truncateSignificant a digits ≤ truncateSignificant b digits := by
  rcases (length_decimalText_mono h).eq_or_lt with hlength | hlength
  · apply le_truncateSignificant
    · rw [← hlength]
      exact dvd_truncateSignificant a digits
    · exact (truncateSignificant_le a digits).trans h
  · -- a power of ten lies between the two
    calc truncateSignificant a digits ≤ a := truncateSignificant_le a digits
      _ ≤ 10 ^ (decimalText a).length := (lt_pow_length_decimalText a).le
      _ ≤ truncateSignificant b digits := pow_le_truncateSignificant hd (length_decimalText_pos a) hlength

theorem truncateSignificant_rounds_down (value digits : ℕ) (hd : 1 ≤ digits) :
    truncateSignificant value digits ≤ value ∧
      (decimalText (truncateSignificant value digits)).length = (decimalText value).length ∧
      ((decimalText value).length ≤ digits → truncateSignificant value digits = value) ∧
      (digits < (decimalText value).length →
        IsGreatest {multiple | 10 ^ ((decimalText value).length - digits) ∣ multiple ∧ multiple ≤ value}
          (truncateSignificant value digits)) ∧
      truncateSignificant (truncateSignificant value digits) digits = truncateSignificant value digits ∧
      Monotone (fun v => truncateSignificant v digits) := by
  refine ⟨truncateSignificant_le value digits, length_truncateSignificant hd, ?_, ?_,
    truncateSignificant_idempotent hd, fun a b => truncateSignificant_mono hd⟩
  · intro hshort
    rw [truncateSignificant_eq, Nat.sub_eq_zero_of_le hshort, pow_zero, Nat.div_one, Nat.mul_one]
  · intro _
    constructor
    · exact ⟨dvd_truncateSignificant value digits, truncateSignificant_le value digits⟩
    · exact fun multiple h => le_truncateSignificant h.1 h.2

theorem truncateSignificant_three_digits :
    truncateSignificant 98765 3 = 98700 ∧
      IsGreatest {multiple | 10 ^ ((decimalText 98765).length - 3) ∣ multiple ∧ multiple ≤ 98765}
        (truncateSignificant 98765 3) :=
  ⟨by decide, (truncateSignificant_rounds_down 98765 3 (by decide)).2.2.2.1 (by decide)⟩

def retainSignificantDigits (value : Uint256) (digits : ℕ) : Result Uint256 :=
  if digits = 0 then fail .invalidArgument "significant digit count must be positive" "digits"
  else do
    let parsed ← integer value
    uint256 (truncateSignificant parsed digits)

theorem exists_retainSignificantDigits (value : Uint256) (hd : 1 ≤ digits) :
    ∃ retained, retainSignificantDigits value digits = .ok retained ∧
      retained.toNat = truncateSignificant value.toNat digits := by
  have hlt : truncateSignificant value.toNat digits < 2 ^ 256 :=
    (truncateSignificant_le _ _).trans_lt value.toNat_lt
  obtain ⟨retained, -, hretained⟩ := Uint256.parse_decimalText hlt
  refine ⟨retained, ?_, hretained⟩
  rw [retainSignificantDigits, if_neg (by omega), integer_eq]
  exact uint256_eq_ok.mpr hretained

end PredictFun.Order
