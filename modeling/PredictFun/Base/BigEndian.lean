import PredictFun.Base.Positional

namespace PredictFun.Base.BigEndian

def ofBytes (bs : List (BitVec 8)) : ℕ := Positional.value BitVec.toNat 256 bs

def minimal (n : ℕ) : List (BitVec 8) := (Nat.digits 256 n).reverse.map (BitVec.ofNat 8)

def fixed (width n : ℕ) : List (BitVec 8) := (List.range width).map (fun i => BitVec.ofNat 8 (n / 256 ^ (width - 1 - i)))

theorem ofBytes_append (as bs : List (BitVec 8)) : ofBytes (as ++ bs) = ofBytes as * 256 ^ bs.length + ofBytes bs :=
  Positional.value_append _ _ _ _

theorem ofBytes_lt (bs : List (BitVec 8)) : ofBytes bs < 256 ^ bs.length :=
  Positional.value_lt _ _ _ (fun b _ => b.isLt)

theorem toNat_ofNat_of_lt : ∀ d < 256, (BitVec.ofNat 8 d).toNat = d :=
  fun d hd => (BitVec.toNat_ofNat d 8).trans (Nat.mod_eq_of_lt hd)

theorem ofBytes_minimal (n : ℕ) : ofBytes (minimal n) = n := Positional.value_written (by norm_num) toNat_ofNat_of_lt n

theorem minimal_ofBytes {bs : List (BitVec 8)} (h : bs.head? ≠ some 0) : minimal (ofBytes bs) = bs := by
  have hwritten : minimal (ofBytes bs) = bs.map (fun b => BitVec.ofNat 8 b.toNat) := by
    refine Positional.written_value (by norm_num) (fun b _ => b.isLt) (fun b hb hzero => h ?_)
    have hb0 : b = 0 := BitVec.eq_of_toNat_eq hzero
    rw [hb, hb0]
  rw [hwritten]
  refine (List.map_congr_left (fun b _ => ?_)).trans (List.map_id bs)
  rw [BitVec.ofNat_toNat, BitVec.setWidth_eq, id]

theorem minimal_head (n : ℕ) : (minimal n).head? ≠ some 0 := by
  intro h
  have hne : BitVec.toNat (0 : BitVec 8) ≠ 0 := Positional.written_head (by norm_num) toNat_ofNat_of_lt h
  exact hne rfl

theorem ofBytes_dropWhile (bs : List (BitVec 8)) : ofBytes (bs.dropWhile (fun b => b = 0)) = ofBytes bs := by
  induction bs with
  | nil => rfl
  | cons b bs ih =>
    by_cases hb : b = 0
    · subst hb
      rw [List.dropWhile_cons_of_pos (by simp), ih]
      simp [ofBytes, Positional.value]
    · rw [List.dropWhile_cons_of_neg (by simpa using hb)]

theorem dropWhile_eq_minimal (bs : List (BitVec 8)) : bs.dropWhile (fun b => b = 0) = minimal (ofBytes bs) := by
  rw [← ofBytes_dropWhile, minimal_ofBytes]
  intro h
  have hn : bs.dropWhile (fun b => decide (b = 0)) ≠ [] := by
    intro hn
    rw [hn] at h
    cases h
  rw [List.head?_eq_some_head hn] at h
  have hhead := List.head_dropWhile_not (fun b : BitVec 8 => decide (b = 0)) hn
  rw [Option.some.inj h] at hhead
  simp at hhead

theorem length_minimal_le {n k : ℕ} (h : n < 256 ^ k) : (minimal n).length ≤ k := by
  rw [minimal, List.length_map, List.length_reverse]
  exact (Nat.digits_length_le_iff (by norm_num) n).mpr h

theorem fixed_succ (width n : ℕ) : fixed (width + 1) n = fixed width (n / 256) ++ [BitVec.ofNat 8 n] := by
  rw [fixed, List.range_succ, List.map_append, fixed]
  congr 1
  · refine List.map_congr_left (fun i hi => ?_)
    have hlt := List.mem_range.mp hi
    rw [Nat.div_div_eq_div_mul, ← pow_succ']
    congr 3
    omega
  · simp

theorem length_fixed (width n : ℕ) : (fixed width n).length = width := by simp [fixed]

theorem ofBytes_fixed (width n : ℕ) : ofBytes (fixed width n) = n % 256 ^ width := by
  induction width generalizing n with
  | zero => simp [fixed, ofBytes, Positional.value, Nat.mod_one]
  | succ width ih =>
    have hlast : ofBytes [BitVec.ofNat 8 n] = n % 256 := by simp [ofBytes, Positional.value]
    rw [fixed_succ, ofBytes_append, ih, hlast, List.length_singleton, pow_one, pow_succ', Nat.mod_mul]
    ring

theorem ofBytes_inj {as bs : List (BitVec 8)} (hl : as.length = bs.length) (h : ofBytes as = ofBytes bs) : as = bs := by
  have he := Positional.map_eq_of_value_eq _ _ (by norm_num) hl (fun b _ => b.isLt) (fun b _ => b.isLt) h
  exact List.map_injective_iff.mpr (fun _ _ => BitVec.eq_of_toNat_eq) he

end PredictFun.Base.BigEndian
