import PredictFun.Base.Positional
import PredictFun.Types.Orders

namespace PredictFun

open Base

def digitValue (c : Byte) : ℕ := c.toNat - 0x30

theorem digitValue_lt {c : Byte} (h : isDigit c = true) : digitValue c < 10 := by
  simp only [isDigit, decide_eq_true_eq] at h
  unfold digitValue
  omega

namespace ExactDecimal

def integerPart (text : Bytes) : Bytes := (unsigned text).takeWhile (fun c => c ≠ byte '.')

def fractionPart (text : Bytes) : Bytes := ((unsigned text).dropWhile (fun c => c ≠ byte '.')).tail

def value (d : ExactDecimal) : ℚ :=
  (if d.text.head? = some (byte '-') then -1 else 1) *
    (Positional.value digitValue 10 (integerPart d.text) + Positional.fraction digitValue 10 (fractionPart d.text))

theorem scan_after_dot (cs : Bytes) (n m : ℕ) (h : scan cs true n = some m) : ∀ c ∈ cs, isDigit c = true := by
  induction cs generalizing n with
  | nil => simp
  | cons c cs ih =>
    rw [scan] at h
    split_ifs at h with hd
    · simp only [List.mem_cons, forall_eq_or_imp]
      exact ⟨hd, ih _ h⟩
    · simp_all

theorem scan_parts (cs : Bytes) (n m : ℕ) (h : scan cs false n = some m) :
    (∀ c ∈ cs.takeWhile (fun c => c ≠ byte '.'), isDigit c = true) ∧
      ∀ c ∈ (cs.dropWhile (fun c => c ≠ byte '.')).tail, isDigit c = true := by
  induction cs generalizing n with
  | nil => simp
  | cons c cs ih =>
    rw [scan] at h
    split_ifs at h with hd hdot
    · have hc : c ≠ byte '.' := by
        rintro rfl
        revert hd
        decide
      obtain ⟨hi, hf⟩ := ih _ h
      simp only [ne_eq, hc, not_false_eq_true, decide_true, List.takeWhile_cons_of_pos,
        List.dropWhile_cons_of_pos, List.mem_cons, forall_eq_or_imp]
      exact ⟨⟨hd, hi⟩, hf⟩
    · rw [hdot.1]
      refine ⟨by simp, ?_⟩
      simpa using scan_after_dot cs n m h

theorem parts_digits (d : ExactDecimal) :
    (∀ c ∈ integerPart d.text, isDigit c = true) ∧ ∀ c ∈ fractionPart d.text, isDigit c = true := by
  have hv := d.valid
  unfold parseError at hv
  cases hs : scan (unsigned d.text) false 0 with
  | none =>
    rw [hs] at hv
    split_ifs at hv
  | some m => exact scan_parts _ 0 m hs

end ExactDecimal

namespace Lifecycle

structure NormalDecimal where
  negative : Bool
  integer : Bytes
  fraction : Bytes
  deriving DecidableEq

def normalize (text : Bytes) : NormalDecimal :=
  let integer := Uint256.canonical (ExactDecimal.integerPart text)
  let fraction := (ExactDecimal.fractionPart text).rdropWhile (fun c => c = byte '0')
  ⟨decide (text.head? = some (byte '-')) && !(decide (integer = ascii "0") && fraction.isEmpty), integer, fraction⟩

def compareDigits (l r : Byte) (rest : ℤ) : ℤ := if l = r then rest else if l < r then -1 else 1

-- digits past the end of the shorter fraction count as zero
def compareFraction : ℕ → Bytes → Bytes → ℤ
  | 0, _, _ => 0
  | width + 1, left, right =>
    compareDigits (left.headD (byte '0')) (right.headD (byte '0')) (compareFraction width left.tail right.tail)

def magnitudeCompare (left right : NormalDecimal) : ℤ :=
  if left.integer.length = right.integer.length then
    if left.integer = right.integer then
      compareFraction (max left.fraction.length right.fraction.length) left.fraction right.fraction
    else if left.integer < right.integer then -1 else 1
  else if left.integer.length < right.integer.length then -1 else 1

def compare (left right : ExactDecimal) : ℤ :=
  let l := normalize left.text
  let r := normalize right.text
  if l.negative ≠ r.negative then if l.negative then -1 else 1
  else
    let magnitude := magnitudeCompare l r
    if l.negative then -magnitude else magnitude

def zero (value : ExactDecimal) : Bool := compare value ExactDecimal.zero = 0

theorem digit_lt {l r : Byte} (h : l < r) (hl : isDigit l = true) : digitValue l < digitValue r := by
  simp only [isDigit, decide_eq_true_eq] at hl
  have hlt : l.toNat < r.toNat := h
  unfold digitValue
  omega

theorem digitValue_zero : digitValue (byte '0') = 0 := by decide

theorem byte_zero_isDigit : isDigit (byte '0') = true := by decide

variable {x y : ℚ} {as bs : Bytes}

theorem sign_of_lt (h : x < y) : ((SignType.sign (x - y) : SignType) : ℤ) = -1 := by
  rw [sign_neg (sub_neg.mpr h)]
  rfl

theorem sign_of_gt (h : y < x) : ((SignType.sign (x - y) : SignType) : ℤ) = 1 := by
  rw [sign_pos (sub_pos.mpr h)]
  rfl

theorem byte_lt_or_gt {l r : Byte} (h : l ≠ r) : l < r ∨ r < l := by
  have : l.toNat ≠ r.toNat := fun he => h (BitVec.eq_of_toNat_eq he)
  rcases Nat.lt_or_gt_of_ne this with h | h
  · exact Or.inl h
  · exact Or.inr h

theorem compareDigits_sign (l r : Byte) (hl : isDigit l = true) (hr : isDigit r = true) (x y : ℚ)
    (hx : 0 ≤ x ∧ x < 1) (hy : 0 ≤ y ∧ y < 1) :
    compareDigits l r (SignType.sign (x - y) : SignType) =
      (SignType.sign ((digitValue l + x) / (10 : ℕ) - (digitValue r + y) / (10 : ℕ)) : SignType) := by
  have lt_step {a b : ℕ} {u v : ℚ} (hab : a < b) (hu : u < 1) (hv : 0 ≤ v) :
      ((a : ℚ) + u) / (10 : ℕ) < (b + v) / (10 : ℕ) := by
    have : (a : ℚ) + 1 ≤ b := by exact_mod_cast hab
    apply div_lt_div_of_pos_right _ (by norm_num)
    linarith
  unfold compareDigits
  split_ifs with he hlt
  · subst he
    have hd : (digitValue l + x) / (10 : ℕ) - (digitValue l + y) / (10 : ℕ) = (x - y) / (10 : ℕ) := by ring
    rw [hd, div_eq_mul_inv, sign_mul, sign_pos (show (0 : ℚ) < ((10 : ℕ) : ℚ)⁻¹ by norm_num), mul_one]
  · exact (sign_of_lt (lt_step (digit_lt hlt hl) hx.2 hy.1)).symm
  · have hgt : r < l := (byte_lt_or_gt he).resolve_left hlt
    exact (sign_of_gt (lt_step (digit_lt hgt hr) hy.2 hx.1)).symm

theorem fraction_range (ds : Bytes) (h : ∀ c ∈ ds, isDigit c = true) :
    0 ≤ Positional.fraction digitValue 10 ds ∧ Positional.fraction digitValue 10 ds < 1 :=
  ⟨Positional.fraction_nonneg _ _ _, Positional.fraction_lt_one _ _ (by norm_num) _ (fun d hd => digitValue_lt (h d hd))⟩

theorem fraction_head_tail (ds : Bytes) :
    Positional.fraction digitValue 10 ds =
      ((digitValue (ds.headD (byte '0')) : ℕ) + Positional.fraction digitValue 10 ds.tail) / (10 : ℕ) := by
  cases ds with
  | nil => simp [digitValue_zero, Positional.fraction, Positional.value]
  | cons d ds => exact Positional.fraction_cons _ _ (by norm_num) _ _

theorem headD_isDigit {ds : Bytes} (h : ∀ c ∈ ds, isDigit c = true) : isDigit (ds.headD (byte '0')) = true := by
  cases ds with
  | nil => exact byte_zero_isDigit
  | cons d ds => exact h d (by simp)

theorem compareFraction_sign (width : ℕ) (ls rs : Bytes) (hl : ∀ c ∈ ls, isDigit c = true)
    (hr : ∀ c ∈ rs, isDigit c = true) (hlw : ls.length ≤ width) (hrw : rs.length ≤ width) :
    compareFraction width ls rs = (SignType.sign (Positional.fraction digitValue 10 ls -
      Positional.fraction digitValue 10 rs) : SignType) := by
  induction width generalizing ls rs with
  | zero =>
    have hln : ls = [] := List.length_eq_zero_iff.mp (by omega)
    have hrn : rs = [] := List.length_eq_zero_iff.mp (by omega)
    simp [compareFraction, hln, hrn]
  | succ width ih =>
    have hlt : ∀ c ∈ ls.tail, isDigit c = true := fun c hc => hl c (List.mem_of_mem_tail hc)
    have hrt : ∀ c ∈ rs.tail, isDigit c = true := fun c hc => hr c (List.mem_of_mem_tail hc)
    rw [compareFraction, ih _ _ hlt hrt (by rw [List.length_tail]; omega) (by rw [List.length_tail]; omega),
      compareDigits_sign _ _ (headD_isDigit hl) (headD_isDigit hr) _ _ (fraction_range _ hlt) (fraction_range _ hrt),
      ← fraction_head_tail, ← fraction_head_tail]

theorem canonical_cases (ds : Bytes) : Uint256.canonical ds = [byte '0'] ∨
    ∃ c cs, Uint256.canonical ds = c :: cs ∧ c ≠ byte '0' := by
  unfold Uint256.canonical
  split_ifs with h
  · exact Or.inl (by decide)
  · refine Or.inr ⟨_, _, (List.cons_head_tail h).symm, ?_⟩
    simpa using List.head_dropWhile_not (fun c : Byte => decide (c = byte '0')) h

theorem canonical_value (ds : Bytes) :
    Positional.value digitValue 10 (Uint256.canonical ds) = Positional.value digitValue 10 ds := by
  have hdrop : Positional.value digitValue 10 (ds.dropWhile (fun c => c = byte '0')) =
      Positional.value digitValue 10 ds := by
    induction ds with
    | nil => rfl
    | cons c cs ih =>
      by_cases hc : c = byte '0'
      · simp [hc, Positional.value_cons, digitValue_zero, ih]
      · simp [hc]
  unfold Uint256.canonical
  split_ifs with h
  · rw [← hdrop, h]
    decide
  · exact hdrop

theorem canonical_isDigit {ds : Bytes} (h : ∀ c ∈ ds, isDigit c = true) :
    ∀ c ∈ Uint256.canonical ds, isDigit c = true := by
  unfold Uint256.canonical
  split_ifs with hd
  · decide
  · exact fun c hc => h c ((List.dropWhile_suffix _).subset hc)

theorem digitValue_ne_zero {c : Byte} (hd : isDigit c = true) (h : c ≠ byte '0') : digitValue c ≠ 0 := by
  simp only [isDigit, decide_eq_true_eq] at hd
  have hn : c.toNat ≠ 0x30 := fun he => h (BitVec.eq_of_toNat_eq he)
  unfold digitValue
  omega

theorem canonical_lt_of_length (ha : ∀ c ∈ as, isDigit c = true) (hb : ∀ c ∈ bs, isDigit c = true)
    (h : (Uint256.canonical as).length < (Uint256.canonical bs).length) :
    Positional.value digitValue 10 (Uint256.canonical as) < Positional.value digitValue 10 (Uint256.canonical bs) := by
  have hlt := Positional.value_lt digitValue 10 _ (fun c hc => digitValue_lt (canonical_isDigit ha c hc))
  rcases canonical_cases bs with hz | ⟨c, cs, hc, hne⟩
  · rcases canonical_cases as with hz' | ⟨c', cs', hc', -⟩
    · simp [hz, hz'] at h
    · simp [hz, hc'] at h
  · have hd : isDigit c = true := canonical_isDigit hb c (by simp [hc])
    have hle := Positional.le_value_of_head digitValue 10 c cs (digitValue_ne_zero hd hne)
    rw [← hc] at hle
    have hl : (Uint256.canonical as).length ≤ cs.length := by
      rw [hc, List.length_cons] at h
      omega
    exact hlt.trans_le ((Nat.pow_le_pow_right (by norm_num) hl).trans hle)

theorem bytes_lt_or_gt (h : as ≠ bs) : as < bs ∨ bs < as := by
  by_cases hlt : as < bs
  · exact Or.inl hlt
  · refine Or.inr ?_
    by_contra hgt
    exact h (List.le_antisymm (List.not_lt.mp hgt) (List.not_lt.mp hlt))

theorem canonical_lt_of_lex (ha : ∀ c ∈ as, isDigit c = true)
    (hl : (Uint256.canonical as).length = (Uint256.canonical bs).length)
    (h : Uint256.canonical as < Uint256.canonical bs) :
    Positional.value digitValue 10 (Uint256.canonical as) < Positional.value digitValue 10 (Uint256.canonical bs) :=
  Positional.value_lt_of_lex digitValue 10 _ _ (fun x hx _ hxy => digit_lt hxy (canonical_isDigit ha x hx)) hl
    (fun c hc => digitValue_lt (canonical_isDigit ha c hc)) h

def NormalDecimal.magnitude (d : NormalDecimal) : ℚ :=
  Positional.value digitValue 10 d.integer + Positional.fraction digitValue 10 d.fraction

theorem integer_dominates {i j : ℕ} (h : i < j) (hx : x < 1) (hy : 0 ≤ y) : (i : ℚ) + x < j + y := by
  have : (i : ℚ) + 1 ≤ j := by exact_mod_cast h
  linarith

variable (l r : ExactDecimal)

theorem magnitudeCompare_sign :
    magnitudeCompare (normalize l.text) (normalize r.text) =
      (SignType.sign ((normalize l.text).magnitude - (normalize r.text).magnitude) : SignType) := by
  obtain ⟨hli, hlf⟩ := l.parts_digits
  obtain ⟨hri, hrf⟩ := r.parts_digits
  have trim (ds : Bytes) (h : ∀ c ∈ ds, isDigit c = true) :
      ∀ c ∈ ds.rdropWhile (fun c => c = byte '0'), isDigit c = true :=
    fun c hc => h c ((List.rdropWhile_prefix _ _).subset hc)
  have hlr := fraction_range _ (trim _ hlf)
  have hrr := fraction_range _ (trim _ hrf)
  unfold magnitudeCompare NormalDecimal.magnitude
  split_ifs with hlen he hlex hlt
  · rw [he, add_sub_add_left_eq_sub]
    exact compareFraction_sign _ _ _ (trim _ hlf) (trim _ hrf) (le_max_left _ _) (le_max_right _ _)
  · exact (sign_of_lt (integer_dominates (canonical_lt_of_lex hli hlen hlex) hlr.2 hrr.1)).symm
  · have hgt := (bytes_lt_or_gt he).resolve_left hlex
    exact (sign_of_gt (integer_dominates (canonical_lt_of_lex hri hlen.symm hgt) hrr.2 hlr.1)).symm
  · exact (sign_of_lt (integer_dominates (canonical_lt_of_length hli hri hlt) hlr.2 hrr.1)).symm
  · have hgt := lt_of_le_of_ne (not_lt.mp hlt) (Ne.symm hlen)
    exact (sign_of_gt (integer_dominates (canonical_lt_of_length hri hli hgt) hrr.2 hlr.1)).symm

theorem rdropWhile_fraction (ds : Bytes) :
    Positional.fraction digitValue 10 (ds.rdropWhile (fun c => c = byte '0')) = Positional.fraction digitValue 10 ds := by
  induction ds using List.reverseRecOn with
  | nil => simp
  | append_singleton ds d ih =>
    by_cases hd : d = byte '0'
    · subst hd
      rw [List.rdropWhile_concat_pos _ _ _ (by simp), ih,
        Positional.fraction_append_zero _ _ (by norm_num) _ _ digitValue_zero]
    · rw [List.rdropWhile_concat_neg _ _ _ (by simpa using hd)]

theorem normalize_magnitude (text : Bytes) : (normalize text).magnitude =
    Positional.value digitValue 10 (ExactDecimal.integerPart text) +
      Positional.fraction digitValue 10 (ExactDecimal.fractionPart text) := by
  simp only [NormalDecimal.magnitude, normalize, canonical_value, rdropWhile_fraction]

theorem magnitude_nonneg (d : NormalDecimal) : 0 ≤ d.magnitude :=
  add_nonneg (Nat.cast_nonneg _) (Positional.fraction_nonneg _ _ _)

def NormalDecimal.value (d : NormalDecimal) : ℚ := (if d.negative then -1 else 1) * d.magnitude

variable (d : ExactDecimal)

theorem normalize_value : (normalize d.text).value = d.value := by
  rw [NormalDecimal.value, ExactDecimal.value, ← normalize_magnitude]
  by_cases hs : d.text.head? = some (byte '-')
  · by_cases hz : (normalize d.text).integer = ascii "0" ∧ (normalize d.text).fraction = []
    · have hm : (normalize d.text).magnitude = 0 := by
        rw [NormalDecimal.magnitude, hz.1, hz.2]
        simp [Positional.fraction, Positional.value, ascii, digitValue_zero]
      rw [hm]
      simp
    · have hn : (normalize d.text).negative = true := by
        rw [not_and_or] at hz
        simp only [normalize, Bool.and_eq_true, decide_eq_true_eq, Bool.not_eq_true', Bool.and_eq_false_iff,
          decide_eq_false_iff_not, List.isEmpty_eq_false_iff]
        exact ⟨hs, hz⟩
      rw [if_pos hn, if_pos hs]
  · have hn : (normalize d.text).negative = false := by simp [normalize, hs]
    simp [hn, hs]

theorem magnitude_pos (h : (normalize d.text).negative = true) :
    0 < (normalize d.text).magnitude := by
  obtain ⟨hi, hf⟩ := d.parts_digits
  simp only [normalize, Bool.and_eq_true, decide_eq_true_eq, Bool.not_eq_true', Bool.and_eq_false_iff] at h
  rcases h.2 with hint | hfrac
  · have hone : 0 < Positional.value digitValue 10 (normalize d.text).integer := by
      rcases canonical_cases (ExactDecimal.integerPart d.text) with hz | ⟨c, cs, hc, hne⟩
      · exact absurd hz (of_decide_eq_false hint)
      · have hd : isDigit c = true := canonical_isDigit hi c (by simp [hc])
        have hle := Positional.le_value_of_head digitValue 10 c cs (digitValue_ne_zero hd hne)
        rw [← hc] at hle
        exact (Nat.pow_pos (by norm_num)).trans_le hle
    exact add_pos_of_pos_of_nonneg (by exact_mod_cast hone) (Positional.fraction_nonneg _ _ _)
  · have hne : (ExactDecimal.fractionPart d.text).rdropWhile (fun c => c = byte '0') ≠ [] := by
      simpa using hfrac
    have hlast := List.rdropWhile_last_not (fun c : Byte => decide (c = byte '0')) _ hne
    have hpos : 0 < Positional.value digitValue 10 (normalize d.text).fraction := by
      have hsplit := List.dropLast_append_getLast hne
      change 0 < Positional.value digitValue 10 ((ExactDecimal.fractionPart d.text).rdropWhile (fun c => c = byte '0'))
      rw [← hsplit, Positional.value_append]
      have hd := hf _ ((List.rdropWhile_prefix _ _).subset (List.getLast_mem hne))
      have := digitValue_ne_zero hd (by simpa using hlast)
      simp only [Positional.value, List.foldl_cons, List.foldl_nil]
      omega
    refine add_pos_of_nonneg_of_pos (Nat.cast_nonneg _) ?_
    unfold Positional.fraction
    positivity

theorem compare_eq_sign : compare l r = (SignType.sign (l.value - r.value) : SignType) := by
  rw [← normalize_value l, ← normalize_value r]
  have hl := magnitude_pos l
  have hr := magnitude_pos r
  have hln := magnitude_nonneg (normalize l.text)
  have hrn := magnitude_nonneg (normalize r.text)
  unfold compare
  dsimp only
  rw [magnitudeCompare_sign]
  unfold NormalDecimal.value
  cases hnl : (normalize l.text).negative <;> cases hnr : (normalize r.text).negative
  · simp
  · have := hr hnr
    simp only [ne_eq, Bool.false_eq_true, not_false_eq_true, reduceIte, one_mul]
    exact (sign_of_gt (by linarith)).symm
  · have := hl hnl
    simp only [ne_eq, Bool.true_eq_false, not_false_eq_true, reduceIte, one_mul, Bool.false_eq_true]
    exact (sign_of_lt (by linarith)).symm
  · simp only [ne_eq, not_true_eq_false, reduceIte, neg_one_mul]
    rw [show -(normalize l.text).magnitude - -(normalize r.text).magnitude =
      -((normalize l.text).magnitude - (normalize r.text).magnitude) by ring, Left.sign_neg]
    simp

theorem zero_value : ExactDecimal.zero.value = 0 := by
  rw [← normalize_value]
  have : normalize ExactDecimal.zero.text = ⟨false, [byte '0'], []⟩ := by decide
  rw [this]
  simp [NormalDecimal.value, NormalDecimal.magnitude, Positional.fraction, Positional.value, digitValue_zero]

theorem zero_iff : zero d = true ↔ d.value = 0 := by
  rw [zero, decide_eq_true_eq, compare_eq_sign, zero_value, sub_zero]
  rcases lt_trichotomy d.value 0 with h | h | h
  · simp [sign_neg h, h.ne]
  · simp [h]
  · simp [sign_pos h, h.ne']

theorem compare_swap : compare r l = -compare l r := by
  rw [compare_eq_sign, compare_eq_sign, ← neg_sub l.value r.value, Left.sign_neg]
  simp

theorem compare_nonneg_iff : compare l r ≥ 0 ↔ r.value ≤ l.value := by
  rw [compare_eq_sign]
  rcases lt_trichotomy l.value r.value with h | h | h
  · simp [sign_neg (sub_neg.mpr h), h]
  · simp [h]
  · simp [sign_pos (sub_pos.mpr h), h.le]

theorem compare_nonpos_iff : compare l r ≤ 0 ↔ l.value ≤ r.value := by
  rw [← compare_nonneg_iff, compare_swap]
  omega

theorem negative_iff : (normalize d.text).negative = true ↔ d.value < 0 := by
  rw [← normalize_value, NormalDecimal.value]
  have hn := magnitude_nonneg (normalize d.text)
  cases h : (normalize d.text).negative
  · simpa using hn
  · simpa using magnitude_pos d h

theorem compare_numeric :
    (∀ left right l r, ExactDecimal.parse left = .ok l → ExactDecimal.parse right = .ok r → l.text = left ∧ r.text = right ∧
      (compare l r < 0 ↔ l.value - r.value < 0) ∧ (compare l r = 0 ↔ l.value - r.value = 0) ∧
      (0 < compare l r ↔ 0 < l.value - r.value)) ∧
    (∀ l, compare l l ≤ 0) ∧ (∀ l r, compare l r ≤ 0 ∨ compare r l ≤ 0) ∧
    (∀ l m r, compare l m ≤ 0 → compare m r ≤ 0 → compare l r ≤ 0) ∧
    ∀ l l' r r', l.value = l'.value → r.value = r'.value → compare l r = compare l' r' := by
  refine ⟨?_, ?_, ?_, ?_, ?_⟩
  · intro left right l r hl hr
    have hge := compare_nonneg_iff l r
    have hle := compare_nonpos_iff l r
    refine ⟨ExactDecimal.parse_ok hl, ExactDecimal.parse_ok hr, ?_, ?_, ?_⟩
    · rw [sub_neg, ← not_le, ← not_le, ← hge]
    · rw [sub_eq_zero, le_antisymm_iff, le_antisymm_iff, hle, ← hge]
    · rw [sub_pos, ← not_le, ← not_le, ← hle]
  · intro l
    rw [compare_nonpos_iff]
  · intro l r
    rw [compare_nonpos_iff, compare_nonpos_iff]
    exact le_total _ _
  · intro l m r
    rw [compare_nonpos_iff, compare_nonpos_iff, compare_nonpos_iff]
    exact le_trans
  · intro l l' r r' hl hr
    rw [compare_eq_sign, compare_eq_sign, hl, hr]

def halfBelow : ExactDecimal := ⟨ascii "-.5", by decide⟩

def halfBelowPadded : ExactDecimal := ⟨ascii "-000.50", by decide⟩

def negativeZero : ExactDecimal := ⟨ascii "-0.0", by decide⟩

theorem compare_numeric_spellings : halfBelow.value - halfBelowPadded.value = 0 ∧
    compare halfBelow negativeZero = compare halfBelowPadded negativeZero ∧ compare halfBelow ExactDecimal.zero ≤ 0 := by
  obtain ⟨hnumeric, -, -, htrans, hspelling⟩ := compare_numeric
  have hsame := (hnumeric _ _ _ _ (ExactDecimal.parse_text halfBelow) (ExactDecimal.parse_text halfBelowPadded)).2.2.2.1.mp
    (by decide)
  exact ⟨hsame, hspelling _ _ _ _ (sub_eq_zero.mp hsame) rfl, htrans _ negativeZero _ (by decide) (by decide)⟩

end Lifecycle

end PredictFun
