import PredictFun.Codec.Integers
import PredictFun.Types.Quantities

namespace PredictFun

open Base Codec

section

def plainValue (text : Bytes) : ℚ :=
  Positional.value digitValue 10 (text.takeWhile (fun c => c ≠ byte '.')) +
    Positional.fraction digitValue 10 (text.dropWhile (fun c => c ≠ byte '.')).tail

theorem isDigit_ne_point {c : Byte} (h : isDigit c = true) : c ≠ byte '.' := by
  rintro rfl
  revert h
  decide

variable {whole : Bytes} {digits : Bytes}

theorem takeWhile_append_point (h : byte '.' ∉ whole) (rest : Bytes) :
    (whole ++ byte '.' :: rest).takeWhile (fun c => c ≠ byte '.') = whole := by
  rw [List.takeWhile_append_of_pos]
  · simp
  · intro c hc
    exact decide_eq_true (ne_of_mem_of_not_mem hc h)

theorem dropWhile_append_point (h : byte '.' ∉ whole) (rest : Bytes) :
    (whole ++ byte '.' :: rest).dropWhile (fun c => c ≠ byte '.') = byte '.' :: rest := by
  rw [List.dropWhile_append_of_pos]
  · simp
  · intro c hc
    exact decide_eq_true (ne_of_mem_of_not_mem hc h)

theorem plainValue_of_not_mem {text : Bytes} (h : byte '.' ∉ text) : plainValue text = Positional.value digitValue 10 text := by
  have hall : ∀ c ∈ text, decide (c ≠ byte '.') = true := fun c hc => decide_eq_true (ne_of_mem_of_not_mem hc h)
  rw [plainValue, List.takeWhile_eq_self_iff.mpr hall, List.dropWhile_eq_nil_iff.mpr hall]
  simp [Positional.fraction, Positional.value]

theorem plainValue_append_point (h : byte '.' ∉ whole) (rest : Bytes) :
    plainValue (whole ++ byte '.' :: rest) = Positional.value digitValue 10 (whole ++ rest) / 10 ^ rest.length := by
  rw [plainValue, takeWhile_append_point h, dropWhile_append_point h, List.tail_cons]
  exact Positional.value_add_fraction digitValue 10 (by norm_num) whole rest

theorem plainValue_eq {text : Bytes} (h : text.count (byte '.') ≤ 1) :
    plainValue text = Positional.value digitValue 10 (text.filter (fun c => c ≠ byte '.')) /
      10 ^ (text.dropWhile (fun c => c ≠ byte '.')).tail.length := by
  have hkept {part : Bytes} (hp : byte '.' ∉ part) : part.filter (fun c => c ≠ byte '.') = part :=
    List.filter_eq_self.mpr (fun c hc => decide_eq_true (ne_of_mem_of_not_mem hc hp))
  by_cases hm : byte '.' ∈ text
  · obtain ⟨whole, rest, rfl, hw⟩ := List.eq_append_cons_of_mem hm
    have hr : byte '.' ∉ rest := by
      rw [List.count_append, List.count_cons_self] at h
      exact List.count_eq_zero.mp (by omega)
    rw [plainValue_append_point hw, dropWhile_append_point hw, List.filter_append, hkept hw,
      List.filter_cons_of_neg (by simp), hkept hr, List.tail_cons]
  · have hd : text.dropWhile (fun c => c ≠ byte '.') = [] :=
      List.dropWhile_eq_nil_iff.mpr (fun c hc => decide_eq_true (ne_of_mem_of_not_mem hc hm))
    rw [plainValue_of_not_mem hm, hkept hm, hd]
    simp

def pointed (digits : Bytes) (places : ℕ) : Bytes :=
  digits.take (digits.length - places) ++ byte '.' :: digits.drop (digits.length - places)

def zeroPadded (width : ℕ) (digits : Bytes) : Bytes := List.replicate (width - digits.length) (byte '0') ++ digits

theorem value_zeros (n : ℕ) : Positional.value digitValue 10 (List.replicate n (byte '0')) = 0 := by
  induction n with
  | zero => rfl
  | succ n ih => rw [List.replicate_succ, Positional.value_cons, Lifecycle.digitValue_zero, zero_mul, zero_add, ih]

theorem value_zeroPadded (width : ℕ) (digits : Bytes) :
    Positional.value digitValue 10 (zeroPadded width digits) = Positional.value digitValue 10 digits := by
  rw [zeroPadded, Positional.value_append, value_zeros, zero_mul, zero_add]

theorem isDigit_zeroPadded (h : ∀ c ∈ digits, isDigit c = true) (width : ℕ) :
    ∀ c ∈ zeroPadded width digits, isDigit c = true := by
  intro c hc
  rcases List.mem_append.mp hc with hz | hd
  · rw [List.eq_of_mem_replicate hz]
    exact Lifecycle.byte_zero_isDigit
  · exact h c hd

theorem le_length_zeroPadded (width : ℕ) (digits : Bytes) : width ≤ (zeroPadded width digits).length := by
  rw [zeroPadded, List.length_append, List.length_replicate]
  omega

theorem point_notMem (h : ∀ c ∈ digits, isDigit c = true) : byte '.' ∉ digits :=
  fun hm => isDigit_ne_point (h _ hm) rfl

theorem plainValue_pointed (h : ∀ c ∈ digits, isDigit c = true) {places : ℕ} (hp : places ≤ digits.length) :
    plainValue (pointed digits places) = Positional.value digitValue 10 digits / 10 ^ places := by
  rw [pointed, plainValue_append_point (fun hm => point_notMem h (List.mem_of_mem_take hm)), List.take_append_drop,
    List.length_drop, Nat.sub_sub_self hp]

theorem filter_digits (h : ∀ c ∈ digits, isDigit c = true) :
    digits.filter (fun c => c ≠ byte '.') = digits :=
  List.filter_eq_self.mpr (fun c hc => decide_eq_true (isDigit_ne_point (h c hc)))

theorem filter_pointed (h : ∀ c ∈ digits, isDigit c = true) (places : ℕ) :
    (pointed digits places).filter (fun c => c ≠ byte '.') = digits := by
  rw [pointed, List.filter_append, List.filter_cons_of_neg (by simp), filter_digits (fun c hc => h c (List.mem_of_mem_take hc)),
    filter_digits (fun c hc => h c (List.mem_of_mem_drop hc)), List.take_append_drop]

end

namespace FixedDecimal

def signedValue (text : Bytes) : ℤ :=
  if text.head? = some (byte '-') then -Positional.value digitValue 10 text.tail else Positional.value digitValue 10 text

/-- The number that a text denotes: digits with a point, times a power of ten after `e` or `E`. -/
def denoted (text : Bytes) : ℚ :=
  plainValue (text.takeWhile (fun c => !isExponentMark c)) *
    10 ^ signedValue (text.dropWhile (fun c => !isExponentMark c)).tail

def Canonical (decimal : FixedDecimal) : Prop := decimal.scale = 0 ∨ ¬10 ∣ decimal.units.toNat

def toString (decimal : FixedDecimal) : Bytes :=
  if decimal.scale = 0 then decimalText decimal.units.toNat
  else
    pointed (zeroPadded (decimal.scale.toNat + 1) (decimalText decimal.units.toNat)) decimal.scale.toNat

section

variable {text : Bytes} {decimal : FixedDecimal}

theorem exponentValue_eq {value : ℤ} (h : exponentValue text = some value) : value = signedValue text := by
  unfold exponentValue at h
  dsimp only at h
  split_ifs at h with hm
  · rw [signedValue, if_pos hm, Option.some.inj h]
  · rw [signedValue, if_neg hm, Option.some.inj h]

theorem exponent_eq {value : ℤ} (h : exponent text = .ok value) :
    value = signedValue (text.dropWhile (fun c => !isExponentMark c)).tail := by
  unfold exponent at h
  split at h
  · next hd =>
    cases h
    rw [hd]
    rfl
  · next mark exponentText hd =>
    rw [hd, List.tail_cons]
    split_ifs at h
    · cases h
    · split at h
      · cases h
      · next read hv =>
        cases h
        exact exponentValue_eq hv

theorem reduce_spec (scale units : ℕ) :
    units = (reduce scale units).1 * 10 ^ (scale - (reduce scale units).2) ∧
      ((reduce scale units).2 = 0 ∨ ¬10 ∣ (reduce scale units).1) := by
  induction scale generalizing units with
  | zero => simp [reduce]
  | succ scale ih =>
    rw [reduce]
    split_ifs with hz
    · obtain ⟨hu, hc⟩ := ih (units / 10)
      refine ⟨?_, hc⟩
      have hle := reduce_le scale (units / 10)
      calc units = units / 10 * 10 := (Nat.div_mul_cancel (Nat.dvd_of_mod_eq_zero hz)).symm
        _ = (reduce scale (units / 10)).1 * 10 ^ (scale - (reduce scale (units / 10)).2) * 10 := by rw [← hu]
        _ = _ := by rw [mul_assoc, ← pow_succ, Nat.succ_sub hle]
    · constructor
      · simp
      · exact .inr (fun hd => hz (Nat.mod_eq_zero_of_dvd hd))

theorem reduce_units_le (scale units : ℕ) : (reduce scale units).1 ≤ units := by
  have h := (reduce_spec scale units).1
  have hp : 0 < 10 ^ (scale - (reduce scale units).2) := by positivity
  exact le_of_le_of_eq (Nat.le_mul_of_pos_right _ hp) h.symm

theorem scaled_spec {digits : Bytes} {fractionalDigits : ℕ} {exponent : ℤ}
    (h : scaled digits fractionalDigits exponent = .ok decimal) :
    decimal.value = Positional.value digitValue 10 digits / 10 ^ fractionalDigits * 10 ^ exponent ∧ decimal.Canonical := by
  have hten : (10 : ℚ) ≠ 0 := by norm_num
  have hshift : (Positional.value digitValue 10 digits : ℚ) / 10 ^ fractionalDigits * 10 ^ exponent =
      Positional.value digitValue 10 digits * 10 ^ (exponent - fractionalDigits) := by
    rw [zpow_sub₀ hten, zpow_natCast]
    field_simp
  unfold scaled at h
  dsimp only at h
  split_ifs at h with hbig hneg hzeros hscale
  · cases h
  · cases h
  · rw [checkedMultiply_eq, BitVec.toNat_ofNat, Nat.mod_eq_of_lt (by omega), toNat_powersOfTen (by omega)] at h
    split_ifs at h with hfits
    · cases h
      constructor
      · have hz : (exponent - fractionalDigits : ℤ) = ((-(fractionalDigits - exponent)).toNat : ℕ) := by omega
        rw [hshift, hz, zpow_natCast, value, BitVec.toNat_ofNat, Nat.mod_eq_of_lt hfits]
        simp
      · exact .inl rfl
    · cases h
  · cases h
  · cases h
    obtain ⟨hunits, hcanonical⟩ := reduce_spec (fractionalDigits - exponent).toNat (Positional.value digitValue 10 digits)
    have hle := reduce_le (fractionalDigits - exponent).toNat (Positional.value digitValue 10 digits)
    have hule := reduce_units_le (fractionalDigits - exponent).toNat (Positional.value digitValue 10 digits)
    generalize reduce (fractionalDigits - exponent).toNat (Positional.value digitValue 10 digits) = reduced at *
    have hu : (BitVec.ofNat 64 reduced.1).toNat = reduced.1 := Nat.mod_eq_of_lt (by omega)
    have hs : (BitVec.ofNat 8 reduced.2).toNat = reduced.2 := Nat.mod_eq_of_lt (by simp only [maxScale] at hscale; omega)
    constructor
    · have hz : (exponent - fractionalDigits : ℤ) = -((fractionalDigits - exponent).toNat : ℕ) := by omega
      have hsplit : (10 : ℚ) ^ (fractionalDigits - exponent).toNat =
          10 ^ ((fractionalDigits - exponent).toNat - reduced.2) * 10 ^ reduced.2 := by
        rw [← pow_add, Nat.sub_add_cancel hle]
      rw [hshift, hz, zpow_neg, zpow_natCast, value, hu, hs, hunits, hsplit]
      push_cast
      field_simp
    · refine hcanonical.imp (fun hz => ?_) (fun hd => ?_)
      · exact BitVec.eq_of_toNat_eq (by rw [hs, hz]; rfl)
      · rwa [hu]

theorem parse_spec (h : parse text = .ok decimal) :
    decimal.value = denoted text ∧ decimal.Canonical := by
  unfold parse at h
  dsimp only at h
  split_ifs at h with hsign hpoints hdigits hempty
  · cases h
  · cases h
  · cases h
  · cases h
  · obtain ⟨exponent, he, hscaled⟩ := Result.bind_eq_ok.mp h
    obtain ⟨hvalue, hcanonical⟩ := scaled_spec hscaled
    refine ⟨?_, hcanonical⟩
    rw [hvalue, denoted, ← exponent_eq he, plainValue_eq (by omega)]

theorem scale_le_of_value (hc : decimal.Canonical) {n places : ℕ}
    (h : decimal.value = n / 10 ^ places) : decimal.scale.toNat ≤ places := by
  by_contra hlt
  rw [not_le] at hlt
  have hu : n * 10 ^ (decimal.scale.toNat - places) = decimal.units.toNat := by
    rw [value, div_eq_div_iff (by positivity) (by positivity)] at h
    have hn : n * 10 ^ decimal.scale.toNat = decimal.units.toNat * 10 ^ places := by exact_mod_cast h.symm
    rw [← Nat.sub_add_cancel hlt.le, pow_add, ← mul_assoc] at hn
    exact Nat.eq_of_mul_eq_mul_right (by positivity) hn
  apply hc.elim
  · intro hz
    rw [hz] at hlt
    exact Nat.not_lt_zero _ hlt
  · intro hd
    apply hd
    rw [← hu]
    exact Dvd.dvd.mul_left (dvd_pow_self 10 (by omega)) _

theorem eq_of_value {left right : FixedDecimal} (hl : left.Canonical) (hr : right.Canonical)
    (h : left.value = right.value) : left = right := by
  have hs : left.scale.toNat = right.scale.toNat :=
    le_antisymm (scale_le_of_value hl h) (scale_le_of_value hr h.symm)
  have hu : left.units.toNat = right.units.toNat := by
    rw [value, value, hs, div_left_inj' (by positivity)] at h
    exact_mod_cast h
  cases left
  cases right
  rw [FixedDecimal.mk.injEq]
  exact ⟨BitVec.eq_of_toNat_eq hu, BitVec.eq_of_toNat_eq hs⟩

end

section

structure Plain (text : Bytes) : Prop where
  chars : ∀ c ∈ text, isDigit c = true ∨ c = byte '.'
  points : text.count (byte '.') ≤ 1
  some_digit : text.filter (fun c => c ≠ byte '.') ≠ []

theorem not_exponentMark {c : Byte} (h : isDigit c = true ∨ c = byte '.') : isExponentMark c = false := by
  rcases h with h | rfl
  · simp only [isDigit, decide_eq_true_eq] at h
    simp only [isExponentMark, decide_eq_false_iff_not, not_or]
    constructor <;> rintro rfl <;> revert h <;> decide
  · decide

theorem Plain.parse_eq {text : Bytes} (h : Plain text) :
    parse text = scaled (text.filter (fun c => c ≠ byte '.')) (text.dropWhile (fun c => c ≠ byte '.')).tail.length 0 := by
  have hmark : ∀ c ∈ text, (!isExponentMark c) = true := fun c hc => by rw [not_exponentMark (h.chars c hc)]; rfl
  have htake : text.takeWhile (fun c => !isExponentMark c) = text := List.takeWhile_eq_self_iff.mpr hmark
  have hdrop : text.dropWhile (fun c => !isExponentMark c) = [] := List.dropWhile_eq_nil_iff.mpr hmark
  have hdigits : (text.filter (fun c => c ≠ byte '.')).all isDigit = true := by
    apply List.all_eq_true.mpr
    intro c hc
    obtain ⟨hm, hne⟩ := List.mem_filter.mp hc
    exact (h.chars c hm).resolve_right (of_decide_eq_true hne)
  have hhead : ¬(text = [] ∨ text.head? = some (byte '-') ∨ text.head? = some (byte '+')) := by
    cases text with
    | nil => exact absurd rfl h.some_digit
    | cons c rest =>
      have hc := h.chars c List.mem_cons_self
      simp only [reduceCtorEq, List.head?_cons, Option.some.injEq, false_or, not_or]
      constructor <;> rintro rfl <;> revert hc <;> decide
  have hexponent : exponent text = .ok 0 := by rw [exponent, hdrop]
  unfold parse
  dsimp only
  rw [if_neg hhead, htake, if_neg (not_lt.mpr h.points), if_neg (by rw [hdigits]; simp), if_neg h.some_digit, hexponent]
  rfl

variable {digits : Bytes}

theorem scaled_ok {places : ℕ} (hu : Positional.value digitValue 10 digits < 2 ^ 64) (hp : places ≤ maxScale) :
    ∃ decimal, scaled digits places 0 = .ok decimal := by
  unfold scaled
  dsimp only
  rw [if_neg (not_le.mpr hu), if_neg (by omega), if_neg (by omega)]
  exact ⟨_, rfl⟩

theorem plain_digits (h : ∀ c ∈ digits, isDigit c = true) (hne : digits ≠ []) : Plain digits where
  chars c hc := .inl (h c hc)
  points := by
    rw [List.count_eq_zero.mpr (point_notMem h)]
    exact Nat.zero_le 1
  some_digit := by rwa [filter_digits h]

theorem plain_pointed (h : ∀ c ∈ digits, isDigit c = true) (hne : digits ≠ []) (places : ℕ) :
    Plain (pointed digits places) where
  chars c hc := by
    rcases List.mem_append.mp hc with hm | hm
    · exact .inl (h c (List.mem_of_mem_take hm))
    · rcases List.mem_cons.mp hm with rfl | hm
      · exact .inr rfl
      · exact .inl (h c (List.mem_of_mem_drop hm))
  points := by
    have hzero (part : Bytes) (hp : part ⊆ digits) : part.count (byte '.') = 0 :=
      List.count_eq_zero.mpr (fun hm => point_notMem h (hp hm))
    rw [pointed, List.count_append, List.count_cons_self, hzero _ (List.take_subset _ _), hzero _ (List.drop_subset _ _)]
  some_digit := by rwa [filter_pointed h]

theorem denoted_plain {text : Bytes} (h : Plain text) : denoted text = plainValue text := by
  have hmark : ∀ c ∈ text, (!isExponentMark c) = true := fun c hc => by rw [not_exponentMark (h.chars c hc)]; rfl
  rw [denoted, List.takeWhile_eq_self_iff.mpr hmark, List.dropWhile_eq_nil_iff.mpr hmark]
  simp [signedValue, Positional.value]

theorem decimalText_ne_nil (n : ℕ) : decimalText n ≠ [] := by simp [decimalText, Nat.toDigits_ne_nil]

variable (decimal : FixedDecimal)

theorem plain_toString : Plain decimal.toString := by
  have hd := isDigit_decimalText decimal.units.toNat
  unfold toString
  split_ifs
  · exact plain_digits hd (decimalText_ne_nil _)
  · apply plain_pointed (isDigit_zeroPadded hd _)
    have := le_length_zeroPadded (decimal.scale.toNat + 1) (decimalText decimal.units.toNat)
    exact List.ne_nil_of_length_pos (by omega)

theorem denoted_toString : denoted decimal.toString = decimal.value := by
  have hd := isDigit_decimalText decimal.units.toNat
  rw [denoted_plain (plain_toString decimal), toString, value]
  split_ifs with hz
  · rw [plainValue_of_not_mem (point_notMem hd), decimalText_value, hz]
    simp
  · have hlength := le_length_zeroPadded (decimal.scale.toNat + 1) (decimalText decimal.units.toNat)
    rw [plainValue_pointed (isDigit_zeroPadded hd _) (by omega), value_zeroPadded, decimalText_value]

theorem parse_toString (h : decimal.scale.toNat ≤ maxScale) :
    ∃ read, parse decimal.toString = .ok read ∧ read.value = decimal.value := by
  have hd := isDigit_decimalText decimal.units.toNat
  have hok : ∃ read, parse decimal.toString = .ok read := by
    rw [(plain_toString decimal).parse_eq, toString]
    split_ifs with hz
    · rw [filter_digits hd, List.dropWhile_eq_nil_iff.mpr (fun c hc => decide_eq_true (isDigit_ne_point (hd c hc)))]
      apply scaled_ok
      · rw [decimalText_value]
        exact decimal.units.isLt
      · exact Nat.zero_le _
    · have hpad := isDigit_zeroPadded hd (decimal.scale.toNat + 1)
      have hlength := le_length_zeroPadded (decimal.scale.toNat + 1) (decimalText decimal.units.toNat)
      rw [filter_pointed hpad, pointed, dropWhile_append_point (fun hm => point_notMem hpad (List.mem_of_mem_take hm)),
        List.tail_cons, List.length_drop, Nat.sub_sub_self (by omega)]
      apply scaled_ok
      · rw [value_zeroPadded, decimalText_value]
        exact decimal.units.isLt
      · exact h
  obtain ⟨read, hr⟩ := hok
  refine ⟨read, hr, ?_⟩
  rw [(parse_spec hr).1, denoted_toString]

end

theorem parse_exact :
    (∀ text decimal, parse text = .ok decimal → decimal.value = denoted text ∧ decimal.scale.toNat ≤ maxScale ∧
      (decimal.scale = 0 ∨ ¬10 ∣ decimal.units.toNat)) ∧
    (∀ text other decimal read, parse text = .ok decimal → parse other = .ok read → denoted text = denoted other →
      decimal = read) ∧
    ∀ decimal : FixedDecimal, decimal.scale.toNat ≤ maxScale →
      ∃ read, parse decimal.toString = .ok read ∧ denoted decimal.toString = decimal.value ∧ read.value = decimal.value := by
  refine ⟨?_, ?_, ?_⟩
  · intro text decimal h
    exact ⟨(parse_spec h).1, parse_scale_le h, (parse_spec h).2⟩
  · intro text other decimal read h hread hsame
    apply eq_of_value (parse_spec h).2 (parse_spec hread).2
    rw [(parse_spec h).1, (parse_spec hread).1, hsame]
  · intro decimal h
    obtain ⟨read, hr, hv⟩ := parse_toString decimal h
    exact ⟨read, hr, denoted_toString decimal, hv⟩

theorem parse_exact_spellings :
    (∃ decimal, parse (ascii "0012.500e-1") = .ok decimal ∧ decimal.value = denoted (ascii "0012.500e-1")) ∧
      parse (ascii "0012.500e-1") = parse (ascii "125E-2") ∧
      ∃ read, parse (toString ⟨1250, 3⟩) = .ok read ∧ read.value = value ⟨1250, 3⟩ := by
  have hlong : parse (ascii "0012.500e-1") = .ok ⟨125, 2⟩ := by decide
  have hshort : parse (ascii "125E-2") = .ok ⟨125, 2⟩ := by decide
  have hlongValue := (parse_exact.1 _ _ hlong).1
  have hshortValue := (parse_exact.1 _ _ hshort).1
  have hsame := parse_exact.2.1 _ _ _ _ hlong hshort (hlongValue.symm.trans hshortValue)
  obtain ⟨read, hr, -, hv⟩ := parse_exact.2.2 ⟨1250, 3⟩ (by decide)
  exact ⟨⟨_, hlong, hlongValue⟩, by rw [hlong, hshort, hsame], read, hr, hv⟩

end FixedDecimal

end PredictFun
