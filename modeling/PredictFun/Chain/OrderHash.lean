import PredictFun.Chain.Calldata

namespace PredictFun.Order

open Base BigEndian Chain

def orderType : String :=
  "Order(uint256 salt,address maker,address signer,address taker,uint256 tokenId,uint256 makerAmount,uint256 takerAmount,uint256 expiration,uint256 nonce,uint256 feeRateBps,uint8 side,uint8 signatureType)"

section

variable (keccak : Bytes → Result Hash32)
-- `U256::from_dec`, nothing if it throws
variable (fromDec : Bytes → Option Bytes32)

def word (value : Uint256) : Result Bytes32 :=
  match fromDec value.text with
  | some be => .ok be
  | none => fail .numericOverflow "uint256 exceeds 32 bytes" ""

def lowBytes : ℕ → BitVec 64 → Bytes
  | 0, _ => []
  | count + 1, value => value.setWidth 8 :: lowBytes count (value >>> 8)

theorem length_lowBytes (count : ℕ) (value : BitVec 64) : (lowBytes count value).length = count := by
  induction count generalizing value with
  | zero => rfl
  | succ count ih => rw [lowBytes, List.length_cons, ih]

def integerWord (value : BitVec 64) : Bytes32 where
  bytes := List.replicate 24 0 ++ (lowBytes 8 value).reverse
  size := by rw [List.length_append, List.length_replicate, List.length_reverse, length_lowBytes]

def orderStructPreimage (order : SignedOrder) : Result Bytes :=
  match keccak (ascii orderType), word fromDec order.salt, word fromDec order.tokenId, word fromDec order.makerAmount,
    word fromDec order.takerAmount, word fromDec order.expiration, word fromDec order.nonce, word fromDec order.feeRateBps with
  | .ok typeHash, .ok salt, .ok token, .ok makerAmount, .ok takerAmount, .ok expiration, .ok nonce, .ok fee =>
    .ok ([typeHash, salt, addressWord order.maker, addressWord order.signer, (order.taker.map addressWord).getD zeroWord, token,
      makerAmount, takerAmount, expiration, nonce, fee, integerWord (BitVec.ofNat 64 order.side.number),
      integerWord (BitVec.ofNat 64 order.signatureType.number)].flatMap Bytes32.bytes)
  | _, _, _, _, _, _, _, _ => fail .numericOverflow "order contains an invalid uint256" ""

def orderStructHash (order : SignedOrder) : Result Hash32 := orderStructPreimage keccak fromDec order >>= keccak

end

def BigEndianForm (fromDec : Bytes → Option Bytes32) : Prop :=
  ∀ value : Uint256, ∃ be, fromDec value.text = some be ∧ ofBytes be.bytes = value.toNat

theorem bytes32_ext {a b : Bytes32} (h : a.bytes = b.bytes) : a = b := by
  cases a
  cases b
  cases h
  rfl

theorem ofBytes_wordOf {n : ℕ} (h : n < 2 ^ 256) : ofBytes (wordOf n).bytes = n := by
  change ofBytes (fixed 32 n) = n
  rw [ofBytes_fixed, Nat.mod_eq_of_lt (by norm_num at h ⊢; exact h)]

theorem wordOf_inj {m n : ℕ} (hm : m < 2 ^ 256) (hn : n < 2 ^ 256) (h : wordOf m = wordOf n) : m = n := by
  rw [← ofBytes_wordOf hm, ← ofBytes_wordOf hn, h]

theorem word_big_endian {fromDec : Bytes → Option Bytes32} (hf : BigEndianForm fromDec) (value : Uint256) :
    word fromDec value = .ok (wordOf value.toNat) := by
  obtain ⟨be, he, hv⟩ := hf value
  have hb : be = wordOf value.toNat := by
    apply bytes32_ext
    refine ofBytes_inj (by rw [be.size, (wordOf _).size]) ?_
    rw [hv, ofBytes_wordOf value.toNat_lt]
  rw [word, he, hb]

theorem integerWord_side (side : ContractSide) : integerWord (BitVec.ofNat 64 side.number) = wordOf side.number := by
  apply bytes32_ext
  cases side <;> decide

theorem integerWord_signatureType (kind : SignatureType) :
    integerWord (BitVec.ofNat 64 kind.number) = wordOf kind.number := by
  apply bytes32_ext
  cases kind <;> decide

theorem orderStructPreimage_ok {keccak : Bytes → Result Hash32} {fromDec : Bytes → Option Bytes32} {typeHash : Hash32}
    (hk : keccak (ascii orderType) = .ok typeHash) (hf : BigEndianForm fromDec) {order : SignedOrder} {words : List Bytes32}
    (hw : orderWords order = .ok words) :
    orderStructPreimage keccak fromDec order = .ok (typeHash.bytes ++ words.flatMap Bytes32.bytes) := by
  rw [orderWords_ok] at hw
  cases hw
  simp only [orderStructPreimage, hk, word_big_endian hf, integerWord_side, integerWord_signatureType, List.flatMap_cons]

/-- Orders with the same hashed fields, where no taker is the zero taker. -/
structure SameHashed (a b : SignedOrder) : Prop where
  salt : a.salt = b.salt
  maker : a.maker = b.maker
  signer : a.signer = b.signer
  taker : takerBytes a = takerBytes b
  tokenId : a.tokenId = b.tokenId
  makerAmount : a.makerAmount = b.makerAmount
  takerAmount : a.takerAmount = b.takerAmount
  expiration : a.expiration = b.expiration
  nonce : a.nonce = b.nonce
  feeRateBps : a.feeRateBps = b.feeRateBps
  side : a.side = b.side
  signatureType : a.signatureType = b.signatureType

theorem wordOf_uint_inj {a b : Uint256} (h : wordOf a.toNat = wordOf b.toNat) : a = b :=
  Uint256.toNat_injective (wordOf_inj a.toNat_lt b.toNat_lt h)

theorem addressWord_inj {a b : EvmAddress} (h : addressWord a = addressWord b) : a = b := by
  have hb : a.bytes = b.bytes := List.append_cancel_left (congrArg Bytes32.bytes h)
  cases a
  cases b
  cases hb
  rfl

theorem number_inj {a b : ContractSide} (h : wordOf a.number = wordOf b.number) : a = b := by
  have hn := wordOf_inj (by cases a <;> decide) (by cases b <;> decide) h
  cases a <;> cases b <;> first | rfl | cases hn

theorem signatureType_number_inj {a b : SignatureType} (h : wordOf a.number = wordOf b.number) : a = b := by
  have hn := wordOf_inj (by cases a <;> decide) (by cases b <;> decide) h
  cases a <;> cases b <;> first | rfl | cases hn

theorem orderWords_inj {a b : SignedOrder} (h : orderWords a = orderWords b) : SameHashed a b := by
  rw [orderWords_ok, orderWords_ok] at h
  simp only [Except.ok.injEq, List.cons.injEq, and_true] at h
  obtain ⟨hsalt, hmaker, hsigner, htaker, htoken, hma, hta, he, hn, hf, hs, hk⟩ := h
  refine ⟨wordOf_uint_inj hsalt, addressWord_inj hmaker, addressWord_inj hsigner, ?_, wordOf_uint_inj htoken,
    wordOf_uint_inj hma, wordOf_uint_inj hta, wordOf_uint_inj he, wordOf_uint_inj hn, wordOf_uint_inj hf, number_inj hs,
    signatureType_number_inj hk⟩
  have hb := congrArg Bytes32.bytes htaker
  rw [takerWord, takerWord] at hb
  exact List.append_cancel_left hb

theorem encodeOrderTuple_words {order : SignedOrder} {words : List Bytes32} {tuple : Bytes}
    (hw : orderWords order = .ok words) (ht : encodeOrderTuple order = .ok tuple) :
    ∃ rest, tuple = words.flatMap Bytes32.bytes ++ rest := by
  rw [encodeOrderTuple, hw] at ht
  split at ht
  · cases ht
  · rename_i words' he
    cases he
    split at ht
    · cases ht
    · cases ht
    · split at ht
      · cases ht
        simp only [List.append_assoc]
        exact ⟨_, rfl⟩
      · cases ht

theorem length_flatMap_bytes (words : List Bytes32) : (words.flatMap Bytes32.bytes).length = words.length * 32 := by
  induction words with
  | nil => rfl
  | cons word words ih =>
    rw [List.flatMap_cons, List.length_append, ih, word.size, List.length_cons]
    ring

theorem cancelled_as_signed {fromDec : Bytes → Option Bytes32} (hf : BigEndianForm fromDec) :
    (∀ keccak typeHash order, keccak (ascii orderType) = .ok typeHash → orderSignature order ≠ [] →
      (orderSignature order).length < 2 ^ 64 →
      ∃ tuple words, encodeOrderTuple order = .ok tuple ∧ orderWords order = .ok words ∧ words.length = 12 ∧
        tuple.take (12 * 32) = words.flatMap Bytes32.bytes ∧
        orderStructHash keccak fromDec order = keccak (typeHash.bytes ++ words.flatMap Bytes32.bytes)) ∧
    ∀ a b, orderWords a = orderWords b → SameHashed a b := by
  refine ⟨fun keccak typeHash order hk hne hs => ?_, fun a b => orderWords_inj⟩
  have ht := encodeOrderTuple_ok hne (hs.trans (by norm_num))
  have hw := orderWords_ok order
  refine ⟨_, _, ht, hw, rfl, ?_, ?_⟩
  · obtain ⟨rest, hr⟩ := encodeOrderTuple_words hw ht
    rw [hr]
    exact List.take_left' (length_flatMap_bytes _)
  · rw [orderStructHash, orderStructPreimage_ok hk hf hw]
    rfl

def sampleFromDec (text : Bytes) : Option Bytes32 := some (wordOf (Positional.value digitValue 10 text))

theorem sample_order_cancelled_as_signed :
    (∃ tuple words, encodeOrderTuple sampleOrder = .ok tuple ∧ orderWords sampleOrder = .ok words ∧ words.length = 12 ∧
      tuple.take (12 * 32) = words.flatMap Bytes32.bytes ∧
      orderStructHash (fun _ => .ok zeroWord) sampleFromDec sampleOrder = .ok zeroWord) ∧
    SameHashed sampleOrder { sampleOrder with taker := some ⟨List.replicate 20 0, rfl⟩ } := by
  have hf : BigEndianForm sampleFromDec := fun value => ⟨_, rfl, ofBytes_wordOf value.toNat_lt⟩
  obtain ⟨hwords, hinj⟩ := cancelled_as_signed hf
  exact ⟨hwords _ _ sampleOrder rfl (by decide) (by decide), hinj _ _ (by rw [orderWords_ok, orderWords_ok]; decide)⟩

end PredictFun.Order
