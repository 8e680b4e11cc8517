import PredictFun.Codec.Trading

namespace PredictFun

open Base Codec

theorem toNat_byte {c : Char} (h : c.isDigit = true) : (byte c).toNat = c.toNat := by
  rw [byte, BitVec.toNat_ofNat]
  exact Nat.mod_eq_of_lt (lt_of_le_of_lt (Char.isDigit_iff_toNat.mp h).2 (by decide))

theorem digitValue_byte {c : Char} (h : c.isDigit = true) : digitValue (byte c) = c.toNat - '0'.toNat := by
  rw [digitValue, toNat_byte h]
  rfl

theorem decimalText_value (n : ℕ) : Positional.value digitValue 10 (decimalText n) = n := by
  rw [Positional.value, decimalText, List.foldl_map]
  calc _ = Nat.ofDigitChars 10 (Nat.toDigits 10 n) 0 := by
        refine List.foldl_ext _ _ _ (fun value c hc => ?_)
        rw [digitValue_byte (Nat.isDigit_of_mem_toDigits (by decide) (by decide) hc)]
    _ = n := Nat.ofDigitChars_ten_toDigits

theorem isDigit_decimalText (n : ℕ) : ∀ c ∈ decimalText n, isDigit c = true := by
  intro c hc
  obtain ⟨d, hd, rfl⟩ := List.mem_map.mp hc
  have h := Nat.isDigit_of_mem_toDigits (by decide) (by decide) hd
  simp only [isDigit, toNat_byte h, decide_eq_true_eq]
  exact Char.isDigit_iff_toNat.mp h

theorem lt_pow_length_decimalText (value : ℕ) : value < 10 ^ (decimalText value).length := by
  have h := Positional.value_lt digitValue 10 (decimalText value) (fun d hd => digitValue_lt (isDigit_decimalText value d hd))
  rwa [decimalText_value] at h

theorem length_decimalText_pos (value : ℕ) : 0 < (decimalText value).length := by
  rw [decimalText, List.length_map]
  exact List.length_pos_iff.mpr Nat.toDigits_ne_nil

theorem length_decimalText_le_iff {value k : ℕ} (hk : 0 < k) : (decimalText value).length ≤ k ↔ value < 10 ^ k := by
  constructor
  · intro h
    exact (lt_pow_length_decimalText value).trans_le (Nat.pow_le_pow_right (by norm_num) h)
  · intro h
    rw [decimalText, List.length_map]
    exact Nat.toDigits_length 10 value k hk h

def NumberText (text : Bytes) : Prop :=
  text ≠ [] ∧ (∀ c ∈ text, isDigit c = true) ∧ (text.head? = some (byte '0') → text = [byte '0'])

def Shortlex (a b : Bytes) : Prop := a.length < b.length ∨ a.length = b.length ∧ a < b

theorem shortlex_trichotomy (a b : Bytes) : Shortlex a b ∨ a = b ∨ Shortlex b a := by
  rcases lt_trichotomy a.length b.length with hl | hl | hl
  · exact Or.inl (Or.inl hl)
  · by_cases he : a = b
    · exact Or.inr (Or.inl he)
    · rcases Lifecycle.bytes_lt_or_gt he with hlt | hgt
      · exact Or.inl (Or.inr ⟨hl, hlt⟩)
      · exact Or.inr (Or.inr (Or.inr ⟨hl.symm, hgt⟩))
  · exact Or.inr (Or.inr (Or.inl hl))

section

variable {a b : Bytes}

theorem NumberText.value_lt_of_shortlex (ha : NumberText a) (hb : NumberText b) (h : Shortlex a b) :
    Positional.value digitValue 10 a < Positional.value digitValue 10 b := by
  have hlt := Positional.value_lt digitValue 10 a (fun c hc => digitValue_lt (ha.2.1 c hc))
  rcases h with hl | ⟨hl, hlex⟩
  · -- the longer text starts with a digit other than zero
    obtain ⟨c, cs, rfl⟩ := List.exists_cons_of_ne_nil hb.1
    have hpos := List.length_pos_iff.mpr ha.1
    have hc : c ≠ byte '0' := by
      rintro rfl
      have hzero := congrArg List.length (hb.2.2 rfl)
      rw [hzero, List.length_singleton] at hl
      omega
    have hle := Positional.le_value_of_head digitValue 10 c cs
      (Lifecycle.digitValue_ne_zero (hb.2.1 c List.mem_cons_self) hc)
    rw [List.length_cons] at hl
    exact hlt.trans_le ((Nat.pow_le_pow_right (by norm_num) (by omega)).trans hle)
  · exact Positional.value_lt_of_lex digitValue 10 a b (fun x hx _ hxy => Lifecycle.digit_lt hxy (ha.2.1 x hx)) hl
      (fun c hc => digitValue_lt (ha.2.1 c hc)) hlex

theorem NumberText.value_lt_iff (ha : NumberText a) (hb : NumberText b) :
    Positional.value digitValue 10 a < Positional.value digitValue 10 b ↔ Shortlex a b := by
  refine ⟨fun h => ?_, ha.value_lt_of_shortlex hb⟩
  rcases shortlex_trichotomy a b with hlt | rfl | hgt
  · exact hlt
  · exact absurd h (lt_irrefl _)
  · exact absurd h (hb.value_lt_of_shortlex ha hgt).asymm

theorem NumberText.value_injective (ha : NumberText a) (hb : NumberText b)
    (h : Positional.value digitValue 10 a = Positional.value digitValue 10 b) : a = b := by
  rcases shortlex_trichotomy a b with hlt | rfl | hgt
  · exact absurd h (ha.value_lt_of_shortlex hb hlt).ne
  · rfl
  · exact absurd h (hb.value_lt_of_shortlex ha hgt).ne'

theorem numberText_decimalText (n : ℕ) : NumberText (decimalText n) := by
  refine ⟨List.length_pos_iff.mp (length_decimalText_pos n), isDigit_decimalText n, fun hhead => ?_⟩
  obtain ⟨cs, hcs⟩ := List.head?_eq_some_iff.mp hhead
  -- without the zero the text would be long enough for the number
  have hvalue := decimalText_value n
  rw [hcs, Positional.value_cons, Lifecycle.digitValue_zero, Nat.zero_mul, Nat.zero_add] at hvalue
  have hlt := Positional.value_lt digitValue 10 cs
    (fun c hc => digitValue_lt (isDigit_decimalText n c (by rw [hcs]; exact List.mem_cons_of_mem _ hc)))
  rw [hvalue] at hlt
  rcases Nat.eq_zero_or_pos cs.length with h0 | hpos
  · rw [hcs, List.length_eq_zero_iff.mp h0]
  · have hshort := (length_decimalText_le_iff hpos).mpr hlt
    rw [hcs, List.length_cons] at hshort
    omega

end

namespace Uint256

variable {text : Bytes} {value : Uint256}

theorem digits_iff : digits text = true ↔ text ≠ [] ∧ ∀ c ∈ text, isDigit c = true := by
  simp only [digits, Bool.and_eq_true, List.all_eq_true, Bool.not_eq_true', List.isEmpty_eq_false_iff]

theorem numberText_canonical (h : digits text = true) : NumberText (canonical text) := by
  obtain ⟨hne, hall⟩ := digits_iff.mp (canonical_digits h)
  refine ⟨hne, hall, fun hhead => ?_⟩
  rcases Lifecycle.canonical_cases text with hz | ⟨c, cs, hc, hnz⟩
  · exact hz
  · rw [hc, List.head?_cons, Option.some.injEq] at hhead
    exact absurd hhead hnz

theorem value_max : Positional.value digitValue 10 uint256Max = 2 ^ 256 - 1 := by decide +kernel

theorem numberText_max : NumberText uint256Max := ⟨by decide, List.all_eq_true.mp (by decide), fun h => absurd h (by decide)⟩

theorem exceeds_iff (h : NumberText text) :
    exceeds text = true ↔ 2 ^ 256 ≤ Positional.value digitValue 10 text := by
  have hlt := numberText_max.value_lt_iff h
  rw [value_max] at hlt
  have hle : 2 ^ 256 - 1 < Positional.value digitValue 10 text ↔ 2 ^ 256 ≤ Positional.value digitValue 10 text := by omega
  rw [← hle, hlt, exceeds, decide_eq_true_iff, Shortlex, eq_comm (a := text.length)]

theorem numberText (value : Uint256) : NumberText value.text := by
  have h := numberText_canonical value.isDigits
  rwa [value.isCanonical] at h

theorem isDigit_text (value : Uint256) : ∀ c ∈ value.text, isDigit c = true := value.numberText.2.1

theorem toNat_lt (value : Uint256) : value.toNat < 2 ^ 256 := by
  by_contra hge
  have hexceeds := (exceeds_iff value.numberText).mpr (not_lt.mp hge)
  rw [value.fits] at hexceeds
  cases hexceeds

theorem toNat_injective {a b : Uint256} (h : a.toNat = b.toNat) : a = b :=
  text_injective (a.numberText.value_injective b.numberText h)

theorem parse_text (value : Uint256) : parse value.text = .ok value := by
  have hf : exceeds (canonical value.text) = false := by rw [value.isCanonical, value.fits]
  have h : parse value.text = .ok ⟨canonical value.text, canonical_digits value.isDigits, canonical_canonical _, hf⟩ := by
    rw [parse, dif_pos value.isDigits, dif_pos hf]
  rw [h]
  congr 1
  apply toNat_injective
  rw [toNat, Lifecycle.canonical_value]
  rfl

theorem toNat_of_parse {n : ℕ} (h : parse (decimalText n) = .ok value) : value.toNat = n := by
  unfold parse at h
  split_ifs at h
  · cases h
    rw [toNat, Lifecycle.canonical_value, decimalText_value]
  · cases h
  · cases h

theorem exceeds_canonical (hd : digits text = true) :
    exceeds (canonical text) = false ↔ Positional.value digitValue 10 text < 2 ^ 256 := by
  rw [← Bool.not_eq_true, exceeds_iff (numberText_canonical hd), Lifecycle.canonical_value, not_le]

theorem parse_eq_ok (hd : digits text = true) :
    parse text = .ok value ↔ value.toNat = Positional.value digitValue 10 text := by
  rw [parse, dif_pos hd]
  constructor
  · intro h
    split_ifs at h
    · cases h
      exact Lifecycle.canonical_value text
    · cases h
  · intro h
    have hf : exceeds (canonical text) = false := (exceeds_canonical hd).mpr (h ▸ value.toNat_lt)
    rw [dif_pos hf]
    congr 1
    apply toNat_injective
    rw [h]
    exact Lifecycle.canonical_value text

theorem digits_of_parse (h : parse text = .ok value) : digits text = true := by
  by_contra hd
  rw [parse, dif_neg hd] at h
  cases h

theorem digits_decimalText (n : ℕ) : digits (decimalText n) = true :=
  digits_iff.mpr ⟨(numberText_decimalText n).1, isDigit_decimalText n⟩

theorem parse_decimalText {n : ℕ} (h : n < 2 ^ 256) : ∃ value, parse (decimalText n) = .ok value ∧ value.toNat = n := by
  have hd := digits_decimalText n
  have hf : exceeds (canonical (decimalText n)) = false :=
    (exceeds_canonical hd).mpr (by rw [decimalText_value]; exact h)
  refine ⟨⟨canonical (decimalText n), canonical_digits hd, canonical_canonical _, hf⟩, ?_, ?_⟩
  · rw [parse, dif_pos hd, dif_pos hf]
  · rw [toNat, Lifecycle.canonical_value, decimalText_value]

end Uint256

end PredictFun
