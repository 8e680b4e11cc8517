import PredictFun.Types.Decimal

namespace PredictFun

theorem toNat_powersOfTen {exponent : ℕ} (h : exponent ≤ FixedDecimal.maxScale) :
    (powersOfTen exponent).toNat = 10 ^ exponent := by
  rw [powersOfTen, BitVec.toNat_ofNat]
  refine Nat.mod_eq_of_lt ?_
  calc 10 ^ exponent ≤ 10 ^ 18 := Nat.pow_le_pow_right (by norm_num) h
    _ < 2 ^ 64 := by norm_num

theorem checkedMultiply_eq (value factor : BitVec 64) :
    checkedMultiply value factor =
      if value.toNat * factor.toNat < 2 ^ 64 then .ok (BitVec.ofNat 64 (value.toNat * factor.toNat))
      else fail .numericOverflow "decimal exceeds uint64 capacity" "" := by
  have hcond : (factor ≠ 0 ∧ value > BitVec.allOnes 64 / factor) ↔ ¬value.toNat * factor.toNat < 2 ^ 64 := by
    rw [gt_iff_lt, BitVec.lt_def, BitVec.toNat_udiv, BitVec.toNat_allOnes, not_lt]
    rcases Nat.eq_zero_or_pos factor.toNat with hz | hpos
    · have hf : factor = 0 := BitVec.eq_of_toNat_eq hz
      simp [hf]
    · have hf : factor ≠ 0 := by
        rintro rfl
        exact absurd hpos (by simp)
      rw [and_iff_right hf, Nat.div_lt_iff_lt_mul hpos]
      exact Nat.lt_iff_add_one_le
  unfold checkedMultiply
  by_cases h : value.toNat * factor.toNat < 2 ^ 64
  · rw [if_neg (by rw [hcond]; exact not_not.mpr h), if_pos h]
    rw [BitVec.ofNat_mul, BitVec.ofNat_toNat, BitVec.ofNat_toNat, BitVec.setWidth_eq, BitVec.setWidth_eq]
  · rw [if_pos (hcond.mpr h), if_neg h]

theorem add_exceeds_iff {a b : ℕ} (ha : a < 2 ^ 64) (hb : b < 2 ^ 64) :
    BitVec.ofNat 64 b > BitVec.allOnes 64 - BitVec.ofNat 64 a ↔ ¬a + b < 2 ^ 64 := by
  rw [gt_iff_lt, BitVec.lt_def, BitVec.toNat_sub, BitVec.toNat_allOnes, BitVec.toNat_ofNat, BitVec.toNat_ofNat,
    Nat.mod_eq_of_lt ha, Nat.mod_eq_of_lt hb]
  omega

namespace FixedDecimal

def unitsAt (scale : ℕ) (decimal : FixedDecimal) : ℕ := decimal.units.toNat * 10 ^ (scale - decimal.scale.toNat)

theorem unitsAt_mono {scale scale' : ℕ} (h : scale ≤ scale') (decimal : FixedDecimal) :
    decimal.unitsAt scale ≤ decimal.unitsAt scale' :=
  Nat.mul_le_mul_left _ (Nat.pow_le_pow_right (by norm_num) (Nat.sub_le_sub_right h _))

theorem unitsAt_self (decimal : FixedDecimal) : decimal.unitsAt decimal.scale.toNat = decimal.units.toNat := by
  simp [unitsAt]

theorem rescaleExact_eq {decimal : FixedDecimal} {target : BitVec 8} (hs : decimal.scale ≤ target)
    (ht : target.toNat ≤ maxScale) :
    decimal.rescaleExact target =
      if decimal.unitsAt target.toNat < 2 ^ 64 then .ok ⟨BitVec.ofNat 64 (decimal.unitsAt target.toNat), target⟩
      else fail .numericOverflow "decimal exceeds uint64 capacity" "" := by
  have hle : decimal.scale.toNat ≤ target.toNat := BitVec.le_def.mp hs
  unfold rescaleExact
  rw [if_neg (not_lt.mpr ht)]
  by_cases he : target = decimal.scale
  · subst he
    rw [if_pos rfl, unitsAt_self, if_pos decimal.units.isLt, BitVec.ofNat_toNat, BitVec.setWidth_eq]
  · have hlt : target > decimal.scale := by
      have : target.toNat ≠ decimal.scale.toNat := fun h => he (BitVec.eq_of_toNat_eq h)
      rw [gt_iff_lt, BitVec.lt_def]
      omega
    rw [if_neg he, if_pos hlt, checkedMultiply_eq, toNat_powersOfTen (le_trans (Nat.sub_le _ _) ht)]
    change Except.map _ (if decimal.unitsAt target.toNat < 2 ^ 64 then _ else _) = _
    split_ifs
    · rfl
    · rfl

def largestScale (quantities : List FixedDecimal) : ℕ := (quantities.map (fun q => q.scale.toNat)).foldr max 0

def exactUnits (quantities : List FixedDecimal) : ℕ := (quantities.map (unitsAt (largestScale quantities))).sum

def total (quantities : List FixedDecimal) : FixedDecimal :=
  ⟨BitVec.ofNat 64 (exactUnits quantities), BitVec.ofNat 8 (largestScale quantities)⟩

variable {quantities : List FixedDecimal}

@[simp] theorem largestScale_cons (q : FixedDecimal) :
    largestScale (q :: quantities) = max q.scale.toNat (largestScale quantities) := rfl

variable {others : List FixedDecimal}

theorem largestScale_perm (h : quantities.Perm others) :
    largestScale quantities = largestScale others := (h.map _).foldr_op_eq

theorem exactUnits_perm (h : quantities.Perm others) :
    exactUnits quantities = exactUnits others := by
  rw [exactUnits, exactUnits, largestScale_perm h]
  exact (h.map _).sum_eq

theorem total_perm (h : quantities.Perm others) : total quantities = total others := by
  rw [total, total, exactUnits_perm h, largestScale_perm h]

theorem le_largestScale {q : FixedDecimal} (h : q ∈ quantities) : q.scale.toNat ≤ largestScale quantities := by
  induction quantities with
  | nil => cases h
  | cons head tail ih =>
    rw [largestScale_cons]
    rcases List.mem_cons.mp h with rfl | h
    · exact le_max_left _ _
    · exact (ih h).trans (le_max_right _ _)

theorem largestScale_le {bound : ℕ} (h : ∀ q ∈ quantities, q.scale.toNat ≤ bound) : largestScale quantities ≤ bound := by
  induction quantities with
  | nil => exact Nat.zero_le _
  | cons head tail ih =>
    rw [largestScale_cons]
    exact max_le (h head List.mem_cons_self) (ih (fun q hq => h q (List.mem_cons_of_mem _ hq)))

theorem sum_unitsAt_mono {scale scale' : ℕ} (h : scale ≤ scale') (quantities : List FixedDecimal) :
    (quantities.map (unitsAt scale)).sum ≤ (quantities.map (unitsAt scale')).sum :=
  List.sum_le_sum (fun q _ => unitsAt_mono h q)

theorem exactUnits_singleton (q : FixedDecimal) : exactUnits [q] = q.units.toNat := by
  simp [exactUnits, largestScale, unitsAt]

theorem total_singleton (q : FixedDecimal) : total [q] = q := by
  simp [total, exactUnits_singleton, largestScale]

theorem exactUnits_pair (a b : FixedDecimal) :
    exactUnits [a, b] = a.unitsAt (max a.scale.toNat b.scale.toNat) + b.unitsAt (max a.scale.toNat b.scale.toNat) := by
  simp [exactUnits, largestScale]

theorem max_le_largestScale (a b : FixedDecimal) (quantities : List FixedDecimal) :
    max a.scale.toNat b.scale.toNat ≤ largestScale (a :: b :: quantities) := by
  rw [largestScale_cons, largestScale_cons]
  exact max_le_max (le_refl _) (le_max_left _ _)

theorem exactUnits_pair_le (a b : FixedDecimal) (quantities : List FixedDecimal) :
    exactUnits [a, b] ≤ exactUnits (a :: b :: quantities) := by
  have hscale : largestScale [a, b] ≤ largestScale (a :: b :: quantities) := by
    simpa [largestScale] using max_le_largestScale a b quantities
  calc exactUnits [a, b] ≤ ([a, b].map (unitsAt (largestScale (a :: b :: quantities)))).sum :=
        sum_unitsAt_mono hscale [a, b]
    _ ≤ exactUnits (a :: b :: quantities) := by
        rw [exactUnits, List.map_cons, List.map_cons, List.sum_cons, List.sum_cons, List.map_cons, List.map_cons,
          List.sum_cons, List.sum_cons]
        simp

section

variable {a b : FixedDecimal}

theorem toNat_scale_total : (total [a, b]).scale.toNat = max a.scale.toNat b.scale.toNat := by
  have hle : max a.scale.toNat b.scale.toNat < 2 ^ 8 := max_lt a.scale.isLt b.scale.isLt
  rw [total, BitVec.toNat_ofNat]
  simp only [largestScale, List.map_cons, List.map_nil, List.foldr_cons, List.foldr_nil, Nat.max_zero]
  exact Nat.mod_eq_of_lt hle

theorem largestScale_merge (quantities : List FixedDecimal) :
    largestScale (total [a, b] :: quantities) = largestScale (a :: b :: quantities) := by
  rw [largestScale_cons, toNat_scale_total, largestScale_cons, largestScale_cons, max_assoc]

theorem unitsAt_merge (h : exactUnits [a, b] < 2 ^ 64) {scale : ℕ} (hs : max a.scale.toNat b.scale.toNat ≤ scale) :
    (total [a, b]).unitsAt scale = a.unitsAt scale + b.unitsAt scale := by
  have hunits : (total [a, b]).units.toNat = exactUnits [a, b] := by
    rw [total, BitVec.toNat_ofNat]
    exact Nat.mod_eq_of_lt h
  have hshift (q : FixedDecimal) (hq : q.scale.toNat ≤ max a.scale.toNat b.scale.toNat) :
      q.unitsAt (max a.scale.toNat b.scale.toNat) * 10 ^ (scale - max a.scale.toNat b.scale.toNat) = q.unitsAt scale := by
    rw [unitsAt, unitsAt, mul_assoc, ← pow_add]
    congr 2
    omega
  rw [unitsAt, hunits, toNat_scale_total, exactUnits_pair, add_mul, hshift a (le_max_left _ _),
    hshift b (le_max_right _ _)]

theorem exactUnits_merge (h : exactUnits [a, b] < 2 ^ 64) (quantities : List FixedDecimal) :
    exactUnits (total [a, b] :: quantities) = exactUnits (a :: b :: quantities) := by
  rw [exactUnits, largestScale_merge, List.map_cons, List.sum_cons, unitsAt_merge h (max_le_largestScale a b quantities),
    exactUnits, List.map_cons, List.map_cons, List.sum_cons, List.sum_cons, add_assoc]

theorem total_merge (h : exactUnits [a, b] < 2 ^ 64) (quantities : List FixedDecimal) :
    total (total [a, b] :: quantities) = total (a :: b :: quantities) := by
  rw [total, exactUnits_merge h, largestScale_merge]
  rfl

end

theorem unitsAt_div {scale : ℕ} {q : FixedDecimal} (h : q.scale.toNat ≤ scale) :
    (q.unitsAt scale : ℚ) / 10 ^ scale = q.value := by
  have hsplit : (10 : ℚ) ^ scale = 10 ^ q.scale.toNat * 10 ^ (scale - q.scale.toNat) := by
    rw [← pow_add]
    congr 1
    omega
  rw [unitsAt, value, hsplit]
  push_cast
  exact mul_div_mul_right _ _ (by positivity)

theorem sum_unitsAt_div {scale : ℕ} (h : ∀ q ∈ quantities, q.scale.toNat ≤ scale) :
    ((quantities.map (unitsAt scale)).sum : ℚ) / 10 ^ scale = (quantities.map value).sum := by
  induction quantities with
  | nil => simp
  | cons q quantities ih =>
    rw [List.map_cons, List.sum_cons, List.map_cons, List.sum_cons, ← ih (fun q hq => h q (List.mem_cons_of_mem _ hq)),
      ← unitsAt_div (h q List.mem_cons_self)]
    push_cast
    ring

theorem total_value (h : exactUnits quantities < 2 ^ 64) : (total quantities).value = (quantities.map value).sum := by
  have hscale : largestScale quantities < 2 ^ 8 :=
    Nat.lt_of_le_pred (by norm_num) (largestScale_le (fun q _ => Nat.le_pred_of_lt q.scale.isLt))
  rw [← sum_unitsAt_div (fun q hq => le_largestScale hq), total, value, BitVec.toNat_ofNat, BitVec.toNat_ofNat,
    Nat.mod_eq_of_lt h, Nat.mod_eq_of_lt hscale]
  rfl

end FixedDecimal

end PredictFun
