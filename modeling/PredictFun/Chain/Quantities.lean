import PredictFun.Chain.Calldata

namespace PredictFun.Chain

open Base BigEndian Codec

def hexPart (c : Byte) : ℕ := (hexValue c).getD 0

def isHex (c : Byte) : Bool := (hexValue c).isSome

def lowerHex (c : Byte) : Byte := if 0x41 ≤ c.toNat ∧ c.toNat ≤ 0x46 then c + 0x20 else c

theorem hexPart_lt (c : Byte) : hexPart c < 16 := by
  unfold hexPart hexValue
  split_ifs <;> simp <;> omega

theorem hexValue_of_isHex {c : Byte} (h : isHex c = true) : hexValue c = some (hexPart c) := by
  rw [isHex, Option.isSome_iff_exists] at h
  obtain ⟨part, hpart⟩ := h
  rw [hexPart, hpart, Option.getD_some]

theorem hexPart_hexDigit : ∀ d < 16, hexPart (hexDigit d) = d :=
  fun d hd => by rw [hexPart, hexValue_hexDigit hd, Option.getD_some]

theorem isHex_hexDigit {d : ℕ} (hd : d < 16) : isHex (hexDigit d) = true := by
  rw [isHex, hexValue_hexDigit hd, Option.isSome_some]

theorem hexDigit_hexPart : ∀ c : Byte, isHex c = true → hexDigit (hexPart c) = lowerHex c := by
  decide

theorem hexPart_eq_zero : ∀ c : Byte, isHex c = true → hexPart c = 0 → c = byte '0' := by
  decide

def QuantityDigits (digits : Bytes) : Prop :=
  digits ≠ [] ∧ (∀ c ∈ digits, isHex c = true) ∧ (digits.head? = some (byte '0') → digits = [byte '0'])

theorem quantityValue_eq (digits : Bytes) :
    quantityValue digits =
      if ∀ c ∈ digits, isHex c = true then some (Positional.value hexPart 16 digits) else none := by
  have hfold (start : ℕ) : digits.foldlM (fun value digit => (hexValue digit).map (fun part => value * 16 + part)) start =
      if ∀ c ∈ digits, isHex c = true then some (digits.foldl (fun n d => 16 * n + hexPart d) start) else none := by
    induction digits generalizing start with
    | nil => simp
    | cons c digits ih =>
      rw [List.foldlM_cons]
      by_cases hc : isHex c = true
      · rw [hexValue_of_isHex hc, Option.map_some, Option.bind_eq_bind, Option.bind_some, ih, Nat.mul_comm start]
        simp only [List.mem_cons, forall_eq_or_imp, hc, true_and, List.foldl_cons]
      · have hnone : hexValue c = none := by simpa [isHex] using hc
        rw [hnone, if_neg (fun h => hc (h c List.mem_cons_self))]
        rfl
  exact hfold 0

theorem quantityDigits_iff {digits : Bytes} :
    QuantityDigits digits ↔ digits ≠ [] ∧ ¬(digits.length > 1 ∧ digits.head? = some (byte '0')) ∧
      ∀ c ∈ digits, isHex c = true := by
  have hsingle : digits.head? = some (byte '0') → (digits = [byte '0'] ↔ ¬digits.length > 1) := by
    intro hhead
    obtain ⟨more, rfl⟩ := List.head?_eq_some_iff.mp hhead
    cases more <;> simp
  constructor
  · rintro ⟨hne, hall, hlead⟩
    exact ⟨hne, fun h => (hsingle h.2).mp (hlead h.2) h.1, hall⟩
  · rintro ⟨hne, hlead, hall⟩
    exact ⟨hne, hall, fun hhead => (hsingle hhead).mpr (fun hl => hlead ⟨hl, hhead⟩)⟩

theorem decodeQuantity_eq_ok {text : Bytes} {value : Uint256} :
    decodeQuantity text = .ok value ↔
      ∃ digits, text = ascii "0x" ++ digits ∧ QuantityDigits digits ∧ Positional.value hexPart 16 digits = value.toNat := by
  have hread (digits : Bytes) : decodeQuantity (ascii "0x" ++ digits) = .ok value ↔
      QuantityDigits digits ∧ Positional.value hexPart 16 digits = value.toNat := by
    have htake : (ascii "0x" ++ digits).take 2 = ascii "0x" := List.take_left' rfl
    have hdrop : (ascii "0x" ++ digits).drop 2 = digits := List.drop_left' rfl
    have hlength : (ascii "0x" ++ digits).length = 2 + digits.length := by rw [List.length_append]; rfl
    have hhead : (ascii "0x" ++ digits)[2]? = digits.head? := by rw [← List.head?_drop, hdrop]
    rw [decodeQuantity, Result.ite_fail_eq_ok, Result.ite_fail_eq_ok, htake, hdrop, hlength, hhead, quantityValue_eq,
      quantityDigits_iff]
    have hempty : ¬(ascii "0x" ≠ ascii "0x" ∨ 2 + digits.length < 3) ↔ digits ≠ [] := by
      rw [← List.length_pos_iff]
      simp
      omega
    have hzero : 2 + digits.length > 3 ↔ digits.length > 1 := by omega
    rw [hempty, hzero, and_assoc, and_assoc]
    refine and_congr_right (fun _ => and_congr_right (fun _ => ?_))
    by_cases hall : ∀ c ∈ digits, isHex c = true
    · rw [if_pos hall]
      dsimp only
      rw [Result.ite_fail_eq_ok, not_le, Uint256.parse_eq_ok (Uint256.digits_decimalText _), decimalText_value]
      exact ⟨fun h => ⟨hall, h.2.symm⟩, fun h => ⟨h.2 ▸ value.toNat_lt, h.2.symm⟩⟩
    · rw [if_neg hall]
      exact ⟨fun h => (nomatch h), fun h => absurd h.1 hall⟩
  constructor
  · intro h
    have htake : text.take 2 = ascii "0x" := by
      rw [decodeQuantity, Result.ite_fail_eq_ok, not_or, not_not] at h
      exact h.1.1
    have htext : ascii "0x" ++ text.drop 2 = text := by rw [← htake, List.take_append_drop]
    rw [← htext, hread] at h
    exact ⟨text.drop 2, htext.symm, h⟩
  · rintro ⟨digits, rfl, h⟩
    exact (hread digits).mpr h

def quantityDigits (n : ℕ) : Bytes := if n = 0 then ascii "0" else Positional.written 16 hexDigit n

theorem encodeQuantity_eq (value : Uint256) : encodeQuantity value = .ok (ascii "0x" ++ quantityDigits value.toNat) := by
  rw [encodeQuantity, quantityDigits]
  split_ifs
  · rfl
  · rfl

theorem quantityDigits_valid (n : ℕ) :
    QuantityDigits (quantityDigits n) ∧ Positional.value hexPart 16 (quantityDigits n) = n := by
  by_cases hn : n = 0
  · rw [hn]
    exact ⟨⟨by decide, List.all_eq_true.mp (by decide), fun _ => rfl⟩, by decide⟩
  · rw [quantityDigits, if_neg hn]
    refine ⟨⟨?_, ?_, fun hhead => ?_⟩, Positional.value_written (by norm_num) hexPart_hexDigit n⟩
    · rw [Positional.written, ne_eq, List.map_eq_nil_iff, List.reverse_eq_nil_iff]
      exact Nat.digits_ne_nil_iff_ne_zero.mpr hn
    · intro c hc
      obtain ⟨d, hd, rfl⟩ := List.mem_map.mp hc
      exact isHex_hexDigit (Nat.digits_lt_base (by norm_num) (List.mem_reverse.mp hd))
    · exact absurd (by decide) (Positional.written_head (by norm_num) hexPart_hexDigit hhead)

theorem quantityDigits_value {digits : Bytes} (h : QuantityDigits digits) :
    quantityDigits (Positional.value hexPart 16 digits) = digits.map lowerHex := by
  obtain ⟨hne, hall, hlead⟩ := h
  obtain ⟨c, cs, rfl⟩ := List.exists_cons_of_ne_nil hne
  by_cases hzero : hexPart c = 0
  · have hc := hexPart_eq_zero c (hall c List.mem_cons_self) hzero
    rw [hlead (by rw [hc, List.head?_cons])]
    decide
  · have hpos : Positional.value hexPart 16 (c :: cs) ≠ 0 :=
      (lt_of_lt_of_le (by positivity) (Positional.le_value_of_head hexPart 16 c cs hzero)).ne'
    rw [quantityDigits, if_neg hpos, Positional.written_value (by norm_num) (fun d _ => hexPart_lt d)]
    · exact List.map_congr_left (fun d hd => hexDigit_hexPart d (hall d hd))
    · intro d hd
      rw [List.head?_cons, Option.some.injEq] at hd
      rwa [← hd]

theorem decodeWordUint256_word (value : Uint256) :
    (word value >>= fun encoded => decodeWordUint256 (encodeHex encoded.bytes)) = .ok value := by
  have hsum : (fixed 32 value.toNat).foldl (fun number b => number * 256 + b.toNat) 0 = value.toNat := by
    have h := ofBytes_fixed 32 value.toNat
    rw [Nat.mod_eq_of_lt (value.toNat_lt.trans_eq (by norm_num))] at h
    rw [ofBytes, Positional.value] at h
    simp only [Nat.mul_comm 256] at h
    exact h
  rw [word_ok]
  change decodeWordUint256 (encodeHex (fixed 32 value.toNat)) = _
  rw [decodeWordUint256, decodeHex_encodeHex]
  change (if (fixed 32 value.toNat).length ≠ 32 then fail .invalidField "ABI uint256 result must contain one word" "result"
    else uintFromBytes (fixed 32 value.toNat)) = _
  rw [if_neg (by rw [length_fixed]; decide), uintFromBytes, hsum, Uint256.parse_eq_ok (Uint256.digits_decimalText _),
    decimalText_value]

theorem hex_and_word_codecs_inverse :
    (∀ bytes, decodeHex (encodeHex bytes) = .ok bytes) ∧
    (∀ value, (encodeQuantity value >>= decodeQuantity) = .ok value) ∧
    (∀ value, (word value >>= fun encoded => decodeWordUint256 (encodeHex encoded.bytes)) = .ok value) ∧
    (∀ text value, decodeQuantity text = .ok value → encodeQuantity value = .ok (text.map lowerHex)) ∧
    ∀ text, (∃ value, decodeQuantity text = .ok value) ↔
      text = ascii "0x0" ∨ ∃ digits, text = ascii "0x" ++ digits ∧ digits ≠ [] ∧ (∀ c ∈ digits, isHex c = true) ∧
        digits.head? ≠ some (byte '0') ∧ Positional.value hexPart 16 digits < 2 ^ 256 := by
  refine ⟨decodeHex_encodeHex, fun value => ?_, decodeWordUint256_word, fun text value h => ?_, fun text => ?_⟩
  · rw [encodeQuantity_eq]
    exact decodeQuantity_eq_ok.mpr ⟨_, rfl, quantityDigits_valid value.toNat⟩
  · obtain ⟨digits, rfl, hd, hv⟩ := decodeQuantity_eq_ok.mp h
    rw [encodeQuantity_eq, ← hv, quantityDigits_value hd, List.map_append]
    rfl
  · constructor
    · rintro ⟨value, h⟩
      obtain ⟨digits, rfl, ⟨hne, hall, hlead⟩, hv⟩ := decodeQuantity_eq_ok.mp h
      by_cases hhead : digits.head? = some (byte '0')
      · left
        rw [hlead hhead]
        rfl
      · exact Or.inr ⟨digits, rfl, hne, hall, hhead, hv ▸ value.toNat_lt⟩
    · rintro (rfl | ⟨digits, rfl, hne, hall, hhead, hlt⟩)
      · exact ⟨Uint256.zero, by decide⟩
      · obtain ⟨value, -, hv⟩ := Uint256.parse_decimalText hlt
        exact ⟨value, decodeQuantity_eq_ok.mpr ⟨digits, rfl, ⟨hne, hall, fun h => absurd h hhead⟩, hv.symm⟩⟩

theorem quantity_letters_lowered :
    ∃ value, decodeQuantity (ascii "0xFe") = .ok value ∧ encodeQuantity value = .ok (ascii "0xfe") := by
  obtain ⟨value, h⟩ := (hex_and_word_codecs_inverse.2.2.2.2 (ascii "0xFe")).mpr
    (Or.inr ⟨ascii "Fe", rfl, by decide, List.all_eq_true.mp (by decide), by decide, by decide⟩)
  exact ⟨value, h, hex_and_word_codecs_inverse.2.2.2.1 _ value h⟩

end PredictFun.Chain
