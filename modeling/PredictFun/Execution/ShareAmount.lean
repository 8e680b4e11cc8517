import PredictFun.Execution.Session
import PredictFun.Order.Amounts
import PredictFun.Types.DecimalText

namespace PredictFun

open Base

inductive WeiText : Bytes → Prop
  | whole {digits : Bytes} (hd : ∀ c ∈ digits, isDigit c = true) (hne : digits ≠ []) : WeiText digits
  | pointed {whole fraction : Bytes} (hw : ∀ c ∈ whole, isDigit c = true) (hf : ∀ c ∈ fraction, isDigit c = true)
      (hwne : whole ≠ []) (hfne : fraction ≠ []) (hl : fraction.length ≤ 18) : WeiText (whole ++ byte '.' :: fraction)

section

theorem scan_digits {digits : Bytes} (h : ∀ c ∈ digits, isDigit c = true) (rest : Bytes) (dot : Bool) (n : ℕ) :
    ExactDecimal.scan (digits ++ rest) dot n = ExactDecimal.scan rest dot (n + digits.length) := by
  induction digits generalizing n with
  | nil => rfl
  | cons c digits ih =>
    rw [List.cons_append, ExactDecimal.scan, if_pos (h c List.mem_cons_self), ih (fun d hd => h d (List.mem_cons_of_mem _ hd)),
      List.length_cons, Nat.add_assoc, Nat.add_comm 1]

variable {text : Bytes}

theorem WeiText.head (h : WeiText text) : ∃ c rest, text = c :: rest ∧ isDigit c = true := by
  cases h with
  | whole hd hne =>
    obtain ⟨c, rest, rfl⟩ := List.exists_cons_of_ne_nil hne
    exact ⟨c, rest, rfl, hd c List.mem_cons_self⟩
  | pointed hw hf hwne hfne hl =>
    obtain ⟨c, rest, rfl⟩ := List.exists_cons_of_ne_nil hwne
    exact ⟨c, _, rfl, hw c List.mem_cons_self⟩

theorem WeiText.unsigned (h : WeiText text) :
    text ≠ [] ∧ text.head? ≠ some (byte '-') ∧ text.head? ≠ some (byte '+') := by
  obtain ⟨c, rest, rfl, hc⟩ := h.head
  refine ⟨List.cons_ne_nil _ _, ?_, ?_⟩
  · rw [List.head?_cons, Ne, Option.some.injEq]
    rintro rfl
    revert hc
    decide
  · rw [List.head?_cons, Ne, Option.some.injEq]
    rintro rfl
    revert hc
    decide

theorem WeiText.parseError (h : WeiText text) : ExactDecimal.parseError text = none := by
  obtain ⟨hne, hminus, -⟩ := h.unsigned
  have hu : ExactDecimal.unsigned text = text := if_neg hminus
  have hlast {digits : Bytes} (hd : ∀ c ∈ digits, isDigit c = true) : digits.getLast? ≠ some (byte '.') :=
    fun hl => point_notMem hd (List.mem_of_getLast? hl)
  rw [ExactDecimal.parseError, if_neg hne, hu, if_neg hne]
  cases h with
  | whole hd hne =>
    have hs := scan_digits hd [] false 0
    rw [List.append_nil] at hs
    rw [hs, ExactDecimal.scan]
    dsimp only
    rw [if_neg]
    rw [Nat.zero_add, not_or]
    exact ⟨fun hz => hne (List.length_eq_zero_iff.mp hz), hlast hd⟩
  | @pointed whole fraction hw hf hwne hfne hl =>
    have hs := scan_digits hf [] true (0 + whole.length)
    rw [List.append_nil] at hs
    rw [scan_digits hw, ExactDecimal.scan, if_neg (by decide), if_pos ⟨rfl, rfl⟩, hs, ExactDecimal.scan]
    dsimp only
    rw [if_neg]
    rw [not_or]
    constructor
    · have := List.length_pos_of_ne_nil hwne
      omega
    · rw [List.getLast?_append_of_ne_nil _ (List.cons_ne_nil _ _), List.getLast?_cons_of_ne_nil hfne]
      exact hlast hf

end

namespace Order

def weiDigits (text : Bytes) : Bytes :=
  text.takeWhile (fun c => c ≠ byte '.') ++ (text.dropWhile (fun c => c ≠ byte '.')).tail ++
    List.replicate (protocolDecimals - (text.dropWhile (fun c => c ≠ byte '.')).tail.length) (byte '0')

theorem takeWhile_digits {digits : Bytes} (h : ∀ c ∈ digits, isDigit c = true) :
    digits.takeWhile (fun c => c ≠ byte '.') = digits ∧ digits.dropWhile (fun c => c ≠ byte '.') = [] := by
  have hall : ∀ c ∈ digits, decide (c ≠ byte '.') = true := fun c hc => decide_eq_true (isDigit_ne_point (h c hc))
  exact ⟨List.takeWhile_eq_self_iff.mpr hall, List.dropWhile_eq_nil_iff.mpr hall⟩

variable {text : Bytes}

theorem weiText_of_ok {amount : Uint256} (h : decimalToWei text = .ok amount) : WeiText text := by
  unfold decimalToWei at h
  dsimp only at h
  split_ifs at h with hsign hpoints hshape hdigits
  · cases h
  · cases h
  · cases h
  · cases h
  · simp only [not_or, not_and, Bool.not_eq_false] at hshape hdigits
    obtain ⟨hwne, hlength, hpoint⟩ := hshape
    rw [List.all_eq_true, List.all_eq_true] at hdigits
    by_cases hm : byte '.' ∈ text
    · have hfne := hpoint hm
      obtain ⟨whole, fraction, rfl, hw⟩ := List.eq_append_cons_of_mem hm
      rw [takeWhile_append_point hw] at hdigits hwne
      rw [dropWhile_append_point hw, List.tail_cons] at hdigits hfne hlength
      exact .pointed hdigits.1 hdigits.2 hwne hfne (not_lt.mp hlength)
    · have hall : ∀ c ∈ text, decide (c ≠ byte '.') = true := fun c hc => decide_eq_true (ne_of_mem_of_not_mem hc hm)
      rw [List.takeWhile_eq_self_iff.mpr hall] at hdigits hwne
      exact .whole hdigits.1 hwne

theorem decimalToWei_eq (h : WeiText text) :
    decimalToWei text = Uint256.parse (Uint256.canonical (weiDigits text)) := by
  obtain ⟨hne, hminus, hplus⟩ := h.unsigned
  unfold decimalToWei
  dsimp only
  rw [if_neg (by simp [hne, hminus, hplus])]
  cases h with
  | whole hd hne =>
    obtain ⟨htake, hdrop⟩ := takeWhile_digits hd
    have hm := point_notMem hd
    rw [if_neg (by rw [List.count_eq_zero.mpr hm]; omega), if_neg, if_neg]
    · rfl
    · rw [htake, hdrop, List.all_eq_true.mpr hd]
      simp
    · rw [htake, hdrop, not_or, not_or]
      exact ⟨hne, Nat.not_lt_zero _, fun hp => hm hp.1⟩
  | @pointed whole fraction hw hf hwne hfne hl =>
    have htake := takeWhile_append_point (point_notMem hw) fraction
    have hdrop := dropWhile_append_point (point_notMem hw) fraction
    have hcount : (whole ++ byte '.' :: fraction).count (byte '.') = 1 := by
      rw [List.count_append, List.count_cons_self, List.count_eq_zero.mpr (point_notMem hw),
        List.count_eq_zero.mpr (point_notMem hf)]
    rw [if_neg (by omega), if_neg, if_neg]
    · rfl
    · rw [htake, hdrop, List.tail_cons, List.all_eq_true.mpr hw, List.all_eq_true.mpr hf]
      simp
    · rw [htake, hdrop, List.tail_cons, not_or, not_or]
      exact ⟨hwne, not_lt.mpr hl, fun hp => hfne hp.2⟩

theorem value_weiDigits (h : WeiText text) :
    (Positional.value digitValue 10 (weiDigits text) : ℚ) = plainValue text * 10 ^ 18 := by
  have hmoved (digits : Bytes) {places : ℕ} (hp : places ≤ 18) :
      (Positional.value digitValue 10 (digits ++ List.replicate (protocolDecimals - places) (byte '0')) : ℚ) =
        Positional.value digitValue 10 digits / 10 ^ places * 10 ^ 18 := by
    have hsplit : (10 : ℚ) ^ 18 = 10 ^ (protocolDecimals - places) * 10 ^ places := by
      rw [← pow_add]
      exact congrArg _ (Nat.sub_add_cancel hp).symm
    rw [Positional.value_append, value_zeros, List.length_replicate, hsplit]
    push_cast
    field_simp
    simp
  cases h with
  | whole hd hne =>
    obtain ⟨htake, hdrop⟩ := takeWhile_digits hd
    rw [weiDigits, htake, hdrop, List.tail_nil, List.append_nil, List.length_nil, hmoved _ (Nat.zero_le 18),
      plainValue_of_not_mem (point_notMem hd), pow_zero, div_one]
  | @pointed whole fraction hw hf hwne hfne hl =>
    rw [weiDigits, takeWhile_append_point (point_notMem hw), dropWhile_append_point (point_notMem hw), List.tail_cons,
      hmoved _ hl, plainValue_append_point (point_notMem hw)]

theorem digits_weiDigits (h : WeiText text) : Uint256.digits (weiDigits text) = true := by
  have hzeros (n : ℕ) : ∀ c ∈ List.replicate n (byte '0'), isDigit c = true := fun c hc => by
    rw [List.eq_of_mem_replicate hc]
    exact Lifecycle.byte_zero_isDigit
  simp only [Uint256.digits, Bool.and_eq_true, List.all_eq_true, weiDigits, List.forall_mem_append]
  cases h with
  | whole hd hne =>
    obtain ⟨htake, hdrop⟩ := takeWhile_digits hd
    rw [htake, hdrop, List.tail_nil]
    exact ⟨by simp [hne], ⟨hd, by simp⟩, hzeros _⟩
  | @pointed whole fraction hw hf hwne hfne hl =>
    rw [takeWhile_append_point (point_notMem hw), dropWhile_append_point (point_notMem hw), List.tail_cons]
    exact ⟨by simp [hwne], ⟨hw, hf⟩, hzeros _⟩

theorem decimalToWei_eq_ok {amount : Uint256} :
    decimalToWei text = .ok amount ↔ WeiText text ∧ (amount.toNat : ℚ) = plainValue text * 10 ^ 18 := by
  have hread (h : WeiText text) : decimalToWei text = .ok amount ↔ (amount.toNat : ℚ) = plainValue text * 10 ^ 18 := by
    rw [decimalToWei_eq h, Uint256.parse_eq_ok (Uint256.canonical_digits (digits_weiDigits h)), Lifecycle.canonical_value,
      ← value_weiDigits h, Nat.cast_inj]
  constructor
  · intro h
    have hw := weiText_of_ok h
    exact ⟨hw, (hread hw).mp h⟩
  · rintro ⟨hw, hv⟩
    exact (hread hw).mpr hv

end Order

namespace Execution

def isZeroDigit (c : Byte) : Bool := c = byte '0'

theorem rdropWhile_point (whole fraction : Bytes) :
    (whole ++ byte '.' :: fraction).rdropWhile isZeroDigit = whole ++ byte '.' :: fraction.rdropWhile isZeroDigit := by
  induction fraction using List.reverseRecOn with
  | nil => rw [List.rdropWhile_concat_neg _ _ _ (by decide), List.rdropWhile_nil]
  | append_singleton fraction c ih =>
    rw [← List.cons_append, ← List.append_assoc]
    by_cases hc : isZeroDigit c = true
    · rw [List.rdropWhile_concat_pos _ _ _ hc, List.rdropWhile_concat_pos _ _ _ hc, ih]
    · rw [List.rdropWhile_concat_neg _ _ _ hc, List.rdropWhile_concat_neg _ _ _ hc]
      simp

theorem protocolDecimal_eq {digits : Bytes} (h : ∀ c ∈ digits, isDigit c = true) :
    ∃ whole fraction, zeroPadded 19 digits = whole ++ fraction ∧ whole ≠ [] ∧ fraction.length = 18 ∧
      protocolDecimal digits = if fraction.rdropWhile isZeroDigit = [] then whole
        else whole ++ byte '.' :: fraction.rdropWhile isZeroDigit := by
  have hlength := le_length_zeroPadded 19 digits
  have hdigits := isDigit_zeroPadded h 19
  refine ⟨(zeroPadded 19 digits).take ((zeroPadded 19 digits).length - 18),
    (zeroPadded 19 digits).drop ((zeroPadded 19 digits).length - 18), (List.take_append_drop _ _).symm, ?_, ?_, ?_⟩
  · apply List.ne_nil_of_length_pos
    rw [List.length_take]
    omega
  · rw [List.length_drop]
    omega
  · have htrim : protocolDecimal digits =
        if ((pointed (zeroPadded 19 digits) 18).rdropWhile isZeroDigit).getLast? = some (byte '.') then
          ((pointed (zeroPadded 19 digits) 18).rdropWhile isZeroDigit).dropLast
        else (pointed (zeroPadded 19 digits) 18).rdropWhile isZeroDigit := rfl
    rw [htrim, pointed, rdropWhile_point]
    by_cases hz : ((zeroPadded 19 digits).drop ((zeroPadded 19 digits).length - 18)).rdropWhile isZeroDigit = []
    · rw [if_pos hz, hz, if_pos List.getLast?_concat, List.dropLast_concat]
    · rw [if_neg hz, if_neg]
      rw [List.getLast?_append_of_ne_nil _ (List.cons_ne_nil _ _), List.getLast?_cons_of_ne_nil hz]
      intro hl
      have hm := (List.rdropWhile_prefix _ _).subset (List.mem_of_getLast? hl)
      exact point_notMem hdigits (List.mem_of_mem_drop hm)

theorem protocolDecimal_spec {digits : Bytes} (h : ∀ c ∈ digits, isDigit c = true) :
    WeiText (protocolDecimal digits) ∧
      plainValue (protocolDecimal digits) = Positional.value digitValue 10 digits / 10 ^ 18 := by
  obtain ⟨whole, fraction, hsplit, hwne, hlength, he⟩ := protocolDecimal_eq h
  have hdigits := isDigit_zeroPadded h 19
  rw [hsplit, List.forall_mem_append] at hdigits
  obtain ⟨hw, hf⟩ := hdigits
  have hvalue : (Positional.value digitValue 10 whole : ℚ) + Positional.fraction digitValue 10 (fraction.rdropWhile isZeroDigit) =
      Positional.value digitValue 10 digits / 10 ^ 18 := by
    have htrim : Positional.fraction digitValue 10 (fraction.rdropWhile isZeroDigit) = Positional.fraction digitValue 10 fraction :=
      Lifecycle.rdropWhile_fraction fraction
    rw [htrim, Positional.value_add_fraction digitValue 10 (by norm_num), ← hsplit, value_zeroPadded, hlength]
    rfl
  have hkept : ∀ c ∈ fraction.rdropWhile isZeroDigit, isDigit c = true :=
    fun c hc => hf c ((List.rdropWhile_prefix _ _).subset hc)
  rw [he, ← hvalue]
  split_ifs with hz
  · rw [hz]
    refine ⟨.whole hw hwne, ?_⟩
    rw [plainValue_of_not_mem (point_notMem hw)]
    simp [Positional.fraction, Positional.value]
  · refine ⟨.pointed hw hkept hwne hz ((List.rdropWhile_prefix _ _).length_le.trans hlength.le), ?_⟩
    rw [plainValue_append_point (point_notMem hw)]
    exact (Positional.value_add_fraction digitValue 10 (by norm_num) whole _).symm

theorem value_of_weiText {decimal : ExactDecimal} (h : WeiText decimal.text) : decimal.value = plainValue decimal.text := by
  have hminus := h.unsigned.2.1
  rw [ExactDecimal.value, if_neg hminus, one_mul, ExactDecimal.integerPart, ExactDecimal.fractionPart, ExactDecimal.unsigned,
    if_neg hminus]
  rfl

def shareAmount (order : SignedOrder) : Option Uint256 :=
  match order.side with
  | .buy => some order.takerAmount
  | .sell => some order.makerAmount
  | .unknown => none

theorem trackedShareAmount_ok {request : CreateOrderRequest} {raw : Uint256} (h : shareAmount request.order = some raw)
    (hpos : 0 < raw.toNat) :
    ∃ amount, trackedShareAmount request = .ok amount ∧ amount.text = protocolDecimal raw.text := by
  have hzero : raw.isZero = false := by
    rw [Bool.eq_false_iff]
    intro hz
    rw [Uint256.toNat_of_isZero hz] at hpos
    exact lt_irrefl 0 hpos
  obtain ⟨htext, -⟩ := protocolDecimal_spec raw.isDigit_text
  have hparse : ExactDecimal.parse (protocolDecimal raw.text) = .ok ⟨_, htext.parseError⟩ := ExactDecimal.parse_text ⟨_, htext.parseError⟩
  refine ⟨⟨_, htext.parseError⟩, ?_, rfl⟩
  unfold shareAmount at h
  unfold trackedShareAmount
  dsimp only
  cases hs : request.order.side with
  | buy =>
    rw [hs] at h
    rw [Option.some.inj h, hzero]
    exact hparse
  | sell =>
    rw [hs] at h
    rw [Option.some.inj h, hzero]
    exact hparse
  | unknown =>
    rw [hs] at h
    cases h

theorem share_amount_lossless :
    (∀ request : CreateOrderRequest, request.order.side = .buy ∨ request.order.side = .sell →
      0 < request.order.makerAmount.toNat → 0 < request.order.takerAmount.toNat →
      ∃ raw amount, shareAmount request.order = some raw ∧ trackedShareAmount request = .ok amount ∧
        amount.value = raw.toNat / 10 ^ 18 ∧ Order.decimalToWei amount.text = .ok raw) ∧
    (∀ text, (∃ amount, Order.decimalToWei text = .ok amount) ↔ WeiText text ∧ plainValue text * 10 ^ 18 < 2 ^ 256) ∧
    ∀ text amount, Order.decimalToWei text = .ok amount → (amount.toNat : ℚ) = plainValue text * 10 ^ 18 := by
  refine ⟨?_, ?_, ?_⟩
  · intro request hside hmaker htaker
    obtain ⟨raw, hraw, hpos⟩ : ∃ raw, shareAmount request.order = some raw ∧ 0 < raw.toNat := by
      rcases hside with hside | hside
      · exact ⟨_, by rw [shareAmount, hside], htaker⟩
      · exact ⟨_, by rw [shareAmount, hside], hmaker⟩
    obtain ⟨amount, htracked, htext⟩ := trackedShareAmount_ok hraw hpos
    obtain ⟨hwei, hvalue⟩ := protocolDecimal_spec raw.isDigit_text
    have hraised : plainValue amount.text = raw.toNat / 10 ^ 18 := by
      rw [htext, hvalue]
      rfl
    refine ⟨raw, amount, hraw, htracked, ?_, ?_⟩
    · rw [value_of_weiText (htext ▸ hwei), hraised]
    · apply Order.decimalToWei_eq_ok.mpr
      refine ⟨htext ▸ hwei, ?_⟩
      rw [hraised, div_mul_cancel₀ _ (by positivity)]
  · intro text
    constructor
    · rintro ⟨amount, h⟩
      obtain ⟨hwei, hvalue⟩ := Order.decimalToWei_eq_ok.mp h
      refine ⟨hwei, ?_⟩
      rw [← hvalue]
      exact_mod_cast amount.toNat_lt
    · rintro ⟨hwei, hlt⟩
      rw [← Order.value_weiDigits hwei] at hlt
      obtain ⟨amount, -, hamount⟩ := Uint256.parse_decimalText
        (show Positional.value digitValue 10 (Order.weiDigits text) < 2 ^ 256 by exact_mod_cast hlt)
      refine ⟨amount, Order.decimalToWei_eq_ok.mpr ⟨hwei, ?_⟩⟩
      rw [hamount, Order.value_weiDigits hwei]
  · intro text amount h
    exact (Order.decimalToWei_eq_ok.mp h).2

def oneWei : Uint256 := .one

def dustRequest : CreateOrderRequest where
  order := ⟨oneWei, .filled 1, .filled 1, none, oneWei, oneWei, oneWei, oneWei, oneWei,
    oneWei, .sell, .eoa, ascii "0x11"⟩
  orderHash := ascii "0x"
  pricePerShareWei := oneWei
  strategy := .limit
  slippageBps := none
  isFillOrKill := none
  isPostOnly := none
  reservedBalancePolicy := none
  isMinAmountOut := none
  selfTradePrevention := none

theorem share_amount_lossless_dust : ∃ amount, trackedShareAmount dustRequest = .ok amount ∧
    amount.value = 1 / 10 ^ 18 ∧ Order.decimalToWei amount.text = .ok oneWei ∧
    (oneWei.toNat : ℚ) = plainValue amount.text * 10 ^ 18 := by
  obtain ⟨hlossless, -, hvalue⟩ := share_amount_lossless
  obtain ⟨raw, amount, hraw, hamount, hdenotes, hback⟩ := hlossless dustRequest (.inr rfl) (by decide) (by decide)
  have hone : raw = oneWei := (Option.some.inj hraw).symm
  subst hone
  refine ⟨amount, hamount, ?_, hback, hvalue _ _ hback⟩
  have hn : oneWei.toNat = 1 := by decide
  rw [hdenotes, hn, Nat.cast_one]

end Execution

end PredictFun
