import PredictFun.Base.LittleEndian

namespace PredictFun.Base.ShiftRegister

variable {w : ℕ}

def shift (poly r : BitVec w) : BitVec w := (r >>> 1) ^^^ (poly &&& (0 - (r &&& 1)))

def absorb (poly r : BitVec w) (byte : BitVec 8) : BitVec w :=
  (shift poly)^[8] (r ^^^ byte.setWidth w)

def digest (poly r : BitVec w) (bytes : List (BitVec 8)) : BitVec w := bytes.foldl (absorb poly) r

theorem mask_getLsbD (r : BitVec w) (i : ℕ) (hi : i < w) : (0 - (r &&& 1)).getLsbD i = r.getLsbD 0 := by
  rcases Nat.eq_zero_or_pos w with rfl | hw
  · omega
  have hand : 0 - (r &&& 1) = if r.getLsbD 0 then BitVec.allOnes w else 0#w := by
    rw [show (1 : BitVec w) = 1#w from rfl, BitVec.and_one_eq_setWidth_ofBool_getLsbD]
    cases hr : r.getLsbD 0
    · simp
    · have hone : BitVec.setWidth w 1#1 = 1#w := by
        apply BitVec.eq_of_toNat_eq
        simp [Nat.mod_eq_of_lt (Nat.one_lt_two_pow hw.ne')]
      simp [hone, BitVec.neg_one_eq_allOnes]
  rw [hand]
  cases hr : r.getLsbD 0 <;> simp [hi]

theorem shift_getLsbD (poly r : BitVec w) (i : ℕ) (hi : i < w) :
    (shift poly r).getLsbD i = (r.getLsbD (1 + i) ^^ (poly.getLsbD i && r.getLsbD 0)) := by
  simp only [shift, BitVec.getLsbD_xor, BitVec.getLsbD_ushiftRight, BitVec.getLsbD_and, mask_getLsbD r i hi]

theorem shift_injective (poly : BitVec w) (hp : poly.getLsbD (w - 1) = true) :
    Function.Injective (shift poly) := by
  intro r s h
  rcases Nat.eq_zero_or_pos w with rfl | hw
  · exact BitVec.eq_of_zero_length rfl
  have bit (i : ℕ) : (shift poly r).getLsbD i = (shift poly s).getLsbD i := by rw [h]
  have hlow : r.getLsbD 0 = s.getLsbD 0 := by
    have ht := bit (w - 1)
    have hr : r.getLsbD (1 + (w - 1)) = false := BitVec.getLsbD_of_ge r _ (by omega)
    have hs : s.getLsbD (1 + (w - 1)) = false := BitVec.getLsbD_of_ge s _ (by omega)
    simpa only [shift_getLsbD _ _ _ (show w - 1 < w by omega), hr, hs, hp, Bool.true_and,
      Bool.false_xor] using ht
  apply BitVec.eq_of_getLsbD_eq
  intro i hi
  cases i with
  | zero => exact hlow
  | succ i =>
    have hb := bit i
    rw [shift_getLsbD _ _ _ (by omega), shift_getLsbD _ _ _ (by omega), hlow, Nat.add_comm 1 i] at hb
    exact Bool.xor_left_inj.mp hb

theorem absorb_left_injective (poly : BitVec w) (hp : poly.getLsbD (w - 1) = true) (byte : BitVec 8) :
    Function.Injective (fun r => absorb poly r byte) := by
  intro r s h
  have hx := (shift_injective poly hp).iterate 8 h
  exact (BitVec.xor_left_inj _).mp hx

theorem digest_injective (poly : BitVec w) (hp : poly.getLsbD (w - 1) = true) (bytes : List (BitVec 8)) :
    Function.Injective (fun r => digest poly r bytes) := by
  induction bytes with
  | nil => exact fun r s h => h
  | cons b bs ih => exact ih.comp (absorb_left_injective poly hp b)

theorem shift_xor (poly a b : BitVec w) : shift poly (a ^^^ b) = shift poly a ^^^ shift poly b := by
  apply BitVec.eq_of_getLsbD_eq
  intro i hi
  rw [BitVec.getLsbD_xor, shift_getLsbD _ _ _ hi, shift_getLsbD _ _ _ hi, shift_getLsbD _ _ _ hi, BitVec.getLsbD_xor,
    BitVec.getLsbD_xor, Bool.and_xor_distrib_left, Bool.xor_assoc, Bool.xor_assoc, Bool.xor_left_comm (b.getLsbD _)]

theorem shift_iterate_xor (poly a b : BitVec w) (n : ℕ) :
    (shift poly)^[n] (a ^^^ b) = (shift poly)^[n] a ^^^ (shift poly)^[n] b := by
  induction n with
  | zero => rfl
  | succ n ih => rw [Function.iterate_succ_apply', Function.iterate_succ_apply', Function.iterate_succ_apply', ih, shift_xor]

theorem shift_iterate_of_clear (poly r : BitVec w) (n : ℕ) (h : ∀ i < n, r.getLsbD i = false) :
    (shift poly)^[n] r = r >>> n := by
  induction n with
  | zero => rw [Function.iterate_zero, id, BitVec.ushiftRight_zero]
  | succ n ih =>
    rw [Function.iterate_succ_apply', ih (fun i hi => h i (by omega))]
    apply BitVec.eq_of_getLsbD_eq
    intro i hi
    have hlow : (r >>> n).getLsbD 0 = false := by
      rw [BitVec.getLsbD_ushiftRight]
      exact h n (by omega)
    rw [shift_getLsbD _ _ _ hi, hlow, Bool.and_false, Bool.xor_false, BitVec.getLsbD_ushiftRight,
      BitVec.getLsbD_ushiftRight, Nat.add_assoc]

/-- As long as the bytes fit in the register, absorbing them one by one is shifting their word through. -/
theorem digest_eq_shift (poly r : BitVec w) (bytes : List (BitVec 8)) (h : 8 * bytes.length ≤ w) :
    digest poly r bytes = (shift poly)^[8 * bytes.length] (r ^^^ ofLittleEndian 0 bytes) := by
  induction bytes generalizing r with
  | nil => simp [digest, ofLittleEndian]
  | cons b bytes ih =>
    rw [List.length_cons] at h
    have hclear : ∀ i < 8, ((ofLittleEndian 0 bytes : BitVec w) <<< 8).getLsbD i = false := by
      intro i hi
      simp [BitVec.getLsbD_shiftLeft, hi]
    have hback : (ofLittleEndian 0 bytes : BitVec w) <<< 8 >>> 8 = ofLittleEndian 0 bytes := by
      apply BitVec.eq_of_getLsbD_eq
      intro i hi
      rw [BitVec.getLsbD_ushiftRight, BitVec.getLsbD_shiftLeft, Nat.add_sub_cancel_left]
      by_cases hb : i < 8 * bytes.length
      · simp [show 8 + i < w by omega]
      · rw [ofLittleEndian_getLsbD_of_ge bytes (by omega) (by omega), Bool.and_false]
    calc digest poly (absorb poly r b) bytes
        = (shift poly)^[8 * bytes.length] (absorb poly r b ^^^ ofLittleEndian 0 bytes) := ih _ (by omega)
      _ = (shift poly)^[8 * bytes.length] ((shift poly)^[8] (r ^^^ ofLittleEndian 0 (b :: bytes))) := by
          rw [ofLittleEndian_cons, ← BitVec.xor_assoc, shift_iterate_xor poly _ _ 8, shift_iterate_of_clear _ _ _ hclear,
            hback, absorb]
      _ = (shift poly)^[8 * (b :: bytes).length] (r ^^^ ofLittleEndian 0 (b :: bytes)) := by
          rw [← Function.iterate_add_apply, List.length_cons, Nat.mul_succ]

theorem digest_ne_of_window_ne (poly : BitVec w) (hp : poly.getLsbD (w - 1) = true) (r : BitVec w)
    (before after : List (BitVec 8)) {a b : List (BitVec 8)} (hl : a.length = b.length) (ha : 8 * a.length ≤ w)
    (hab : a ≠ b) : digest poly r (before ++ (a ++ after)) ≠ digest poly r (before ++ (b ++ after)) := by
  intro h
  simp only [digest, List.foldl_append] at h
  have hwindow := digest_injective poly hp after h
  have hword : (ofLittleEndian 0 a : BitVec w) = ofLittleEndian 0 b := by
    have hshift := (digest_eq_shift poly _ a ha).symm.trans (hwindow.trans (digest_eq_shift poly _ b (hl ▸ ha)))
    rw [← hl] at hshift
    exact (BitVec.xor_right_inj _).mp ((shift_injective poly hp).iterate _ hshift)
  apply hab
  rw [← littleEndian_ofLittleEndian a ha, ← littleEndian_ofLittleEndian b (hl ▸ ha), hword, hl]

end PredictFun.Base.ShiftRegister
