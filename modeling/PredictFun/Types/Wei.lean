import PredictFun.Codec.Integers

namespace PredictFun

open Base Codec

def integer (value : Uint256) : Result ℕ :=
  value.text.foldlM
    (fun result c => if isDigit c then .ok (10 * result + digitValue c) else fail .invalidField "invalid uint256" "") 0

def uint256 (value : ℤ) : Result Uint256 :=
  if value < 0 then fail .numericOverflow "negative uint256" ""
  else Uint256.parse (decimalText value.toNat)

def Uint256.ofNat (n : ℕ) (h : n < 2 ^ 256) : Uint256 where
  text := canonical (decimalText n)
  isDigits := canonical_digits (digits_decimalText n)
  isCanonical := canonical_canonical (decimalText n)
  fits := (exceeds_canonical (digits_decimalText n)).mpr (by rw [decimalText_value]; exact h)

theorem integer_eq (value : Uint256) : integer value = .ok value.toNat := by
  have hfold (text : Bytes) (start : ℕ) (h : ∀ c ∈ text, isDigit c = true) :
      text.foldlM (fun result c => if isDigit c then .ok (10 * result + digitValue c)
        else fail .invalidField "invalid uint256" "") start =
        (.ok (text.foldl (fun n d => 10 * n + digitValue d) start) : Result ℕ) := by
    induction text generalizing start with
    | nil => rfl
    | cons c text ih =>
      rw [List.foldlM_cons, if_pos (h c List.mem_cons_self)]
      exact ih _ (fun d hd => h d (List.mem_cons_of_mem _ hd))
  exact hfold value.text 0 value.isDigit_text

theorem Uint256.toNat_of_isZero {value : Uint256} (h : value.isZero = true) : value.toNat = 0 := by
  have htext : value.text = ascii "0" := of_decide_eq_true h
  have hread := integer_eq value
  rw [integer, htext] at hread
  exact (Except.ok.inj hread).symm

theorem uint256_eq_ok {n : ℕ} {value : Uint256} : uint256 n = .ok value ↔ value.toNat = n := by
  rw [uint256, if_neg (by omega), Int.toNat_natCast]
  constructor
  · exact Uint256.toNat_of_parse
  · rintro rfl
    obtain ⟨other, hparse, hvalue⟩ := Uint256.parse_decimalText value.toNat_lt
    rw [hparse, Uint256.toNat_injective hvalue]

theorem uint256_error {n : ℤ} {error : Error} (h : uint256 n = .error error) : error.code = .numericOverflow := by
  unfold uint256 at h
  split_ifs at h with hneg
  · cases h
    rfl
  · unfold Uint256.parse at h
    split_ifs at h with hdigits hfits
    · cases h
      rfl
    · exact absurd (Uint256.digits_decimalText _) hdigits

end PredictFun
