import Mathlib

namespace PredictFun.Base

def littleEndian {w : ℕ} : ℕ → BitVec w → List (BitVec 8)
  | 0, _ => []
  | n + 1, bits => bits.setWidth 8 :: littleEndian n (bits >>> 8)

def ofLittleEndian {w : ℕ} : ℕ → List (BitVec 8) → BitVec w
  | _, [] => 0
  | index, b :: bs => (b.setWidth w <<< (index * 8)) ||| ofLittleEndian (index + 1) bs

variable {w : ℕ}

@[simp] theorem littleEndian_length (n : ℕ) (v : BitVec w) : (littleEndian n v).length = n := by
  induction n generalizing v with
  | zero => rfl
  | succ n ih => simp [littleEndian, ih]

theorem ofLittleEndian_getLsbD (n k i : ℕ) (v : BitVec w) :
    (ofLittleEndian k (littleEndian n v) : BitVec w).getLsbD i =
      (decide (8 * k ≤ i ∧ i < 8 * (k + n) ∧ i < w) && v.getLsbD (i - 8 * k)) := by
  induction n generalizing k v with
  | zero =>
    have hi : ¬(8 * k ≤ i ∧ i < 8 * (k + 0) ∧ i < w) := by omega
    rw [decide_eq_false hi, Bool.false_and]
    simp [littleEndian, ofLittleEndian]
  | succ n ih =>
    simp only [littleEndian, ofLittleEndian, BitVec.getLsbD_or, ih, BitVec.getLsbD_shiftLeft,
      BitVec.getLsbD_setWidth, BitVec.getLsbD_ushiftRight]
    by_cases hw : i < w
    swap
    · simp [hw]
    by_cases hk : i < k * 8
    · have h₁ : ¬8 * k ≤ i := by omega
      have h₂ : ¬8 * (k + 1) ≤ i := by omega
      simp [hk, h₁, h₂]
    · by_cases h8 : i < 8 * (k + 1)
      · have h₁ : 8 * k ≤ i := by omega
        have h₂ : i < 8 * (k + (n + 1)) := by omega
        have h₃ : ¬8 * (k + 1) ≤ i := by omega
        have h₄ : i - k * 8 < 8 := by omega
        have h₅ : i - k * 8 < w := by omega
        have h₆ : i - k * 8 = i - 8 * k := by omega
        simp [hw, hk, h₁, h₂, h₃, ← h₆, h₄, h₅]
      · have h₁ : 8 * k ≤ i := by omega
        have h₂ : 8 * (k + 1) ≤ i := by omega
        have h₃ : ¬i - k * 8 < 8 := by omega
        have h₄ : 8 + (i - 8 * (k + 1)) = i - 8 * k := by omega
        have h₅ : i < 8 * (k + 1 + n) ↔ i < 8 * (k + (n + 1)) := by omega
        simp [hw, h₁, h₂, h₃, h₄, h₅]

theorem ofLittleEndian_littleEndian {w n : ℕ} (h : w = 8 * n) (v : BitVec w) :
    ofLittleEndian 0 (littleEndian n v) = v := by
  apply BitVec.eq_of_getLsbD_eq
  intro i hi
  have hb : 8 * 0 ≤ i ∧ i < 8 * (0 + n) ∧ i < w := by omega
  rw [ofLittleEndian_getLsbD, decide_eq_true hb]
  simp

theorem littleEndian_congr (n : ℕ) (u v : BitVec w) (h : ∀ i < 8 * n, u.getLsbD i = v.getLsbD i) :
    littleEndian n u = littleEndian n v := by
  induction n generalizing u v with
  | zero => rfl
  | succ n ih =>
    have hlow : u.setWidth 8 = v.setWidth 8 := by
      apply BitVec.eq_of_getLsbD_eq
      intro i hi
      simp only [BitVec.getLsbD_setWidth, hi, decide_true, Bool.true_and]
      exact h i (by omega)
    have hhigh : littleEndian n (u >>> 8) = littleEndian n (v >>> 8) := by
      apply ih
      intro i hi
      simp only [BitVec.getLsbD_ushiftRight]
      exact h (8 + i) (by omega)
    rw [littleEndian, littleEndian, hlow, hhigh]

theorem ofLittleEndian_shift (k : ℕ) (bs : List (BitVec 8)) :
    (ofLittleEndian (k + 1) bs : BitVec w) = ofLittleEndian k bs <<< 8 := by
  induction bs generalizing k with
  | nil => simp [ofLittleEndian]
  | cons b bs ih =>
    have hk : (k + 1) * 8 = k * 8 + 8 := by omega
    simp only [ofLittleEndian, ih, BitVec.shiftLeft_or_distrib, ← BitVec.shiftLeft_add, hk]

theorem littleEndian_ofLittleEndian (bs : List (BitVec 8)) (h : 8 * bs.length ≤ w) :
    littleEndian bs.length (ofLittleEndian 0 bs : BitVec w) = bs := by
  induction bs with
  | nil => rfl
  | cons b bs ih =>
    simp only [List.length_cons] at h
    have hlow : (ofLittleEndian 0 (b :: bs) : BitVec w).setWidth 8 = b := by
      apply BitVec.eq_of_getLsbD_eq
      intro i hi
      have hiw : i < w := by omega
      simp [ofLittleEndian, ofLittleEndian_shift, hi, hiw]
    have hhigh : littleEndian bs.length ((ofLittleEndian 0 (b :: bs) : BitVec w) >>> 8) =
        littleEndian bs.length (ofLittleEndian 0 bs : BitVec w) := by
      apply littleEndian_congr
      intro i hi
      have hb : b.getLsbD (8 + i) = false := BitVec.getLsbD_of_ge b (8 + i) (by omega)
      simp only [ofLittleEndian, ofLittleEndian_shift, BitVec.getLsbD_ushiftRight, BitVec.getLsbD_or,
        BitVec.getLsbD_shiftLeft, BitVec.getLsbD_setWidth, Nat.zero_mul, Nat.sub_zero, hb, Bool.and_false,
        Bool.false_or, Nat.add_sub_cancel_left]
      simp [show 8 + i < w by omega]
    simp only [List.length_cons, littleEndian, hlow, hhigh, ih (by omega)]

theorem ofLittleEndian_getLsbD_of_ge {w i : ℕ} (bs : List (BitVec 8)) (h : 8 * bs.length ≤ w) (hi : 8 * bs.length ≤ i) :
    (ofLittleEndian 0 bs : BitVec w).getLsbD i = false := by
  have hb : ¬(8 * 0 ≤ i ∧ i < 8 * (0 + bs.length) ∧ i < w) := by omega
  rw [← littleEndian_ofLittleEndian bs h, ofLittleEndian_getLsbD, decide_eq_false hb, Bool.false_and]

theorem ofLittleEndian_cons (b : BitVec 8) (bs : List (BitVec 8)) :
    (ofLittleEndian 0 (b :: bs) : BitVec w) = b.setWidth w ^^^ ofLittleEndian 0 bs <<< 8 := by
  rw [ofLittleEndian, ofLittleEndian_shift, Nat.zero_mul, BitVec.shiftLeft_zero]
  apply BitVec.eq_of_getLsbD_eq
  intro i hi
  rw [BitVec.getLsbD_or, BitVec.getLsbD_xor, BitVec.getLsbD_setWidth, BitVec.getLsbD_shiftLeft]
  by_cases h8 : i < 8
  · simp [h8]
  · simp [BitVec.getLsbD_of_ge b i (by omega)]

end PredictFun.Base
