import PredictFun.Base.Rlp
import PredictFun.Chain.Transaction

namespace PredictFun.Chain

open Base BigEndian

theorem decodeHex_length {text bytes : Bytes} (h : decodeHex text = .ok bytes) : text.length = 2 * bytes.length + 2 := by
  unfold decodeHex at h
  split_ifs at h with hbad
  · cases h
  push Not at hbad
  cases hb : hexBytes (text.drop 2) with
  | none =>
    rw [hb] at h
    cases h
  | some found =>
    rw [hb] at h
    cases h
    have htwo : 2 ≤ text.length := by
      have hl := congrArg List.length hbad.1
      rw [List.length_take] at hl
      have : (ascii "0x").length = 2 := rfl
      omega
    have hl := hexBytes_length (text.length / 2 - 1) (by rw [List.length_drop]; omega) hb
    omega

theorem rlpBytes_eq (value : Bytes) : rlpBytes value = Rlp.encode (.bytes value) := by
  rw [Rlp.encode, Rlp.framed]
  rfl

theorem rlpInteger_eq (n : ℕ) : rlpInteger n = Rlp.encode (.bytes (minimal n)) := by
  rw [← rlpBytes_eq]
  rfl

theorem rlpList_eq (items : List Rlp.Item) : rlpList (items.map Rlp.encode) = Rlp.encode (.list items) := by
  rw [Rlp.encode, Rlp.encodeAll_eq]
  rfl

def integerItem (n : ℕ) : Rlp.Item := .bytes (minimal n)

def baseItems (transaction : PopulatedTransaction) (data : Bytes) : List Rlp.Item :=
  [integerItem transaction.nonce.toNat, integerItem transaction.gasPrice.toNat, integerItem transaction.gasLimit.toNat,
    .bytes transaction.toAddress.bytes, integerItem transaction.value.toNat, .bytes data]

def signingPreimage (transaction : PopulatedTransaction) : Result Bytes := do
  let fields ← baseFields transaction
  return rlpList (fields ++ [rlpInteger transaction.chainId.value, rlpBytes [], rlpBytes []])

theorem signingDigest_eq (keccak : Bytes → Result Hash32) (transaction : PopulatedTransaction) :
    legacyTransactionSigningDigest keccak transaction = signingPreimage transaction >>= keccak := by
  unfold legacyTransactionSigningDigest signingPreimage
  cases baseFields transaction <;> rfl

variable {transaction : PopulatedTransaction} {data : Bytes}

theorem baseFields_ok (h : decodeHex transaction.data = .ok data) :
    baseFields transaction = .ok ((baseItems transaction data).map Rlp.encode) := by
  have hdata : transactionData transaction.data = .ok data := by rw [transactionData, h]
  simp only [baseFields, hdata, baseItems, integerItem, List.map_cons, List.map_nil, ← rlpBytes_eq]
  rfl

theorem signingPreimage_ok (h : decodeHex transaction.data = .ok data) :
    signingPreimage transaction = .ok (Rlp.encode (.list (baseItems transaction data ++
      [integerItem transaction.chainId.value, .bytes [], .bytes []]))) := by
  rw [signingPreimage, baseFields_ok h, ← rlpList_eq, List.map_append, rlpInteger_eq, rlpBytes_eq]
  rfl

def signedTransaction (transaction : PopulatedTransaction) (signature : Bytes) : Result Bytes := do
  let fields ← baseFields transaction
  return signedEncoding transaction fields signature

theorem signatureBytes_ok {text signature : Bytes} (h : decodeHex text = .ok signature) (hl : signature.length = 65)
    (hv : signature.getLast? = some 27 ∨ signature.getLast? = some 28) : signatureBytes text = .ok signature := by
  rw [signatureBytes, h]
  dsimp only
  rw [if_neg (by omega), if_neg (by tauto)]

theorem sealTransaction_eq {keccak : Bytes → Result Hash32} {text signature : Bytes}
    (h : decodeHex text = .ok signature) (hl : signature.length = 65)
    (hv : signature.getLast? = some 27 ∨ signature.getLast? = some 28) :
    sealTransaction keccak transaction (.ok text) = signedTransaction transaction signature >>= fun encoded =>
      (keccak encoded).map (fun hash => ⟨encodeHex encoded, encodeHex hash.bytes⟩) := by
  have hs : ((.ok text : Result Bytes) >>= signatureBytes) = .ok signature := signatureBytes_ok h hl hv
  rw [sealTransaction, hs, signedTransaction]
  cases baseFields transaction with
  | error error => rfl
  | ok fields =>
    change (keccak (signedEncoding transaction fields signature) >>= fun hash => .ok _) =
      (keccak (signedEncoding transaction fields signature)).map _
    cases keccak (signedEncoding transaction fields signature) <;> rfl

def signatureItems (chain : ℕ) (signature : Bytes) : List Rlp.Item :=
  [integerItem (35 + 2 * chain + ((signature.getLast?.getD 27).toNat - 27)), integerItem (ofBytes (signature.take 32)),
    integerItem (ofBytes ((signature.drop 32).take 32))]

theorem signedTransaction_ok (h : decodeHex transaction.data = .ok data)
    (signature : Bytes) :
    signedTransaction transaction signature =
      .ok (Rlp.encode (.list (baseItems transaction data ++ signatureItems transaction.chainId.value signature))) := by
  have htrim (offset : ℕ) : rlpBytes (trimWord signature offset) =
      Rlp.encode (integerItem (ofBytes ((signature.drop offset).take 32))) := by
    rw [rlpBytes_eq, trimWord, dropWhile_eq_minimal, integerItem]
  have hv : (signature.getLast?.getD 27).toNat - 27 + 35 + transaction.chainId.value * 2 =
      35 + 2 * transaction.chainId.value + ((signature.getLast?.getD 27).toNat - 27) := by ring
  rw [signedTransaction, baseFields_ok h, ← rlpList_eq, List.map_append]
  simp only [signedEncoding, htrim, rlpInteger_eq, hv]
  rfl

section

theorem length_integerItem_le {n : ℕ} (h : n < 2 ^ 256) : (Rlp.encode (integerItem n)).length ≤ 41 := by
  have hl : (minimal n).length ≤ 32 := length_minimal_le (by norm_num at h ⊢; exact h)
  have he := Rlp.length_bytes_le (minimal n) (by omega)
  rw [integerItem]
  omega

variable {transaction : PopulatedTransaction} {data : Bytes}

theorem length_baseItems_le (transaction : PopulatedTransaction) (hs : data.length < 2 ^ 63) :
    (Rlp.encodeAll (baseItems transaction data)).length ≤ data.length + 202 := by
  have hn := length_integerItem_le transaction.nonce.toNat_lt
  have hp := length_integerItem_le transaction.gasPrice.toNat_lt
  have hg := length_integerItem_le transaction.gasLimit.toNat_lt
  have hv := length_integerItem_le transaction.value.toNat_lt
  have ht := Rlp.length_bytes_le transaction.toAddress.bytes (by rw [transaction.toAddress.size]; norm_num)
  have hd := Rlp.length_bytes_le data (by omega)
  rw [transaction.toAddress.size] at ht
  simp only [baseItems, Rlp.encodeAll, List.length_append, List.length_nil]
  omega

theorem length_items_lt {more : List Rlp.Item}
    (hs : data.length < 2 ^ 63) (hm : (Rlp.encodeAll more).length ≤ 123) :
    (Rlp.encode (.list (baseItems transaction data ++ more))).length < 256 ^ 8 := by
  have hb := length_baseItems_le transaction hs
  have hl : (Rlp.encodeAll (baseItems transaction data ++ more)).length ≤ data.length + 325 := by
    rw [Rlp.encodeAll_eq, List.map_append, List.flatten_append, List.length_append, ← Rlp.encodeAll_eq, ← Rlp.encodeAll_eq]
    omega
  have hf := Rlp.length_framed_le 0xc0 (Rlp.encodeAll (baseItems transaction data ++ more)) (by omega)
  rw [Rlp.encode]
  omega

theorem decode_preimage (hs : data.length < 2 ^ 63) :
    Rlp.decode (Rlp.encode (.list (baseItems transaction data ++
        [integerItem transaction.chainId.value, .bytes [], .bytes []]))) =
      some (.list (baseItems transaction data ++ [integerItem transaction.chainId.value, .bytes [], .bytes []])) := by
  refine Rlp.decode_encode (length_items_lt hs ?_)
  have hc := length_integerItem_le (n := transaction.chainId.value) (by cases transaction.chainId <;> decide)
  have he := Rlp.length_bytes_le [] (by norm_num)
  simp only [Rlp.encodeAll, List.length_append, List.length_nil] at he ⊢
  omega

theorem decode_signed (signature : Bytes) (hs : data.length < 2 ^ 63) :
    Rlp.decode (Rlp.encode (.list (baseItems transaction data ++ signatureItems transaction.chainId.value signature))) =
      some (.list (baseItems transaction data ++ signatureItems transaction.chainId.value signature)) := by
  refine Rlp.decode_encode (length_items_lt hs ?_)
  have hv : 35 + 2 * transaction.chainId.value + ((signature.getLast?.getD 27).toNat - 27) < 2 ^ 256 := by
    have hbyte := (signature.getLast?.getD 27).isLt
    have hchain : transaction.chainId.value ≤ 97 := by cases transaction.chainId <;> decide
    omega
  have hword (bytes : Bytes) (hb : bytes.length ≤ 32) : ofBytes bytes < 2 ^ 256 :=
    calc ofBytes bytes < 256 ^ bytes.length := ofBytes_lt bytes
      _ ≤ 256 ^ 32 := Nat.pow_le_pow_right (by norm_num) hb
      _ = 2 ^ 256 := by norm_num
  have h₁ := length_integerItem_le hv
  have h₂ := length_integerItem_le (hword (signature.take 32) (by simp))
  have h₃ := length_integerItem_le (hword ((signature.drop 32).take 32) (by simp))
  simp only [signatureItems, Rlp.encodeAll, List.length_append, List.length_nil]
  omega

end

theorem length_data_lt {text data : Bytes} (h : decodeHex text = .ok data) (hs : text.length < 2 ^ 64) :
    data.length < 2 ^ 63 := by
  have hl := decodeHex_length h
  omega

theorem chainId_value_injective {a b : ChainId} (h : a.value = b.value) : a = b := by
  cases a <;> cases b <;> first | rfl | cases h

theorem integerItem_injective {m n : ℕ} (h : integerItem m = integerItem n) : m = n := by
  rw [← ofBytes_minimal m, ← ofBytes_minimal n, Rlp.Item.bytes.inj h]

/-- A transaction is read back from what is hashed to be signed and from what is sent, so nothing else has the same
preimage. The length of a text is a `std::size_t`. -/
theorem transaction_encoding_faithful :
    (∀ transaction data, decodeHex transaction.data = .ok data → transaction.data.length < 2 ^ 64 →
      ∃ preimage, (∀ keccak, legacyTransactionSigningDigest keccak transaction = keccak preimage) ∧
        signingPreimage transaction = .ok preimage ∧
        Rlp.decode preimage = some (.list
          [integerItem transaction.nonce.toNat, integerItem transaction.gasPrice.toNat,
            integerItem transaction.gasLimit.toNat, .bytes transaction.toAddress.bytes,
            integerItem transaction.value.toNat, .bytes data, integerItem transaction.chainId.value, .bytes [],
            .bytes []])) ∧
    (∀ left right leftData rightData preimage, decodeHex left.data = .ok leftData → decodeHex right.data = .ok rightData →
      left.data.length < 2 ^ 64 → right.data.length < 2 ^ 64 →
      signingPreimage left = .ok preimage → signingPreimage right = .ok preimage →
      left.nonce = right.nonce ∧ left.gasPrice = right.gasPrice ∧ left.gasLimit = right.gasLimit ∧
        left.toAddress = right.toAddress ∧ left.value = right.value ∧ leftData = rightData ∧
        left.chainId = right.chainId) ∧
    ∀ transaction data text signature, decodeHex transaction.data = .ok data → transaction.data.length < 2 ^ 64 →
      decodeHex text = .ok signature → signature.length = 65 →
      signature.getLast? = some 27 ∨ signature.getLast? = some 28 →
      ∃ encoded, (∀ keccak, sealTransaction keccak transaction (.ok text) =
          (keccak encoded).map (fun hash => ⟨encodeHex encoded, encodeHex hash.bytes⟩)) ∧
        Rlp.decode encoded = some (.list
          [integerItem transaction.nonce.toNat, integerItem transaction.gasPrice.toNat,
            integerItem transaction.gasLimit.toNat, .bytes transaction.toAddress.bytes,
            integerItem transaction.value.toNat, .bytes data,
            integerItem (35 + 2 * transaction.chainId.value + ((signature.getLast?.getD 27).toNat - 27)),
            integerItem (ofBytes (signature.take 32)), integerItem (ofBytes ((signature.drop 32).take 32))]) := by
  refine ⟨?_, ?_, ?_⟩
  · intro transaction data h hs
    refine ⟨_, fun keccak => ?_, signingPreimage_ok h, decode_preimage (length_data_lt h hs)⟩
    rw [signingDigest_eq, signingPreimage_ok h]
    rfl
  · intro left right leftData rightData preimage hl hr hls hrs hpl hpr
    rw [signingPreimage_ok hl] at hpl
    rw [signingPreimage_ok hr, ← hpl] at hpr
    have hitems := congrArg Rlp.decode (Except.ok.inj hpr)
    rw [decode_preimage (length_data_lt hr hrs), decode_preimage (length_data_lt hl hls)] at hitems
    simp only [baseItems, List.cons_append, List.nil_append, Option.some.injEq, Rlp.Item.list.injEq, List.cons.injEq,
      Rlp.Item.bytes.injEq] at hitems
    obtain ⟨hn, hp, hg, ht, hv, hd, hc, -⟩ := hitems
    refine ⟨(Uint256.toNat_injective (integerItem_injective hn)).symm,
      (Uint256.toNat_injective (integerItem_injective hp)).symm, (Uint256.toNat_injective (integerItem_injective hg)).symm,
      ?_, (Uint256.toNat_injective (integerItem_injective hv)).symm, hd.symm,
      (chainId_value_injective (integerItem_injective hc)).symm⟩
    cases hleft : left.toAddress
    cases hright : right.toAddress
    simp only [hleft, hright] at ht
    cases ht
    rfl
  · intro transaction data text signature h hs ht hl hv
    refine ⟨_, fun keccak => ?_, decode_signed signature (length_data_lt h hs)⟩
    rw [sealTransaction_eq ht hl hv, signedTransaction_ok h]
    rfl

def sampleTransfer : PopulatedTransaction where
  chainId := .bnbTestnet
  fromAddress := .filled 2
  toAddress := .filled 1
  nonce := .zero
  gasPrice := .zero
  gasLimit := .zero
  value := .zero
  data := ascii "0xAb"

def sampleSignature : Bytes := List.replicate 31 0 ++ [5] ++ List.replicate 30 0 ++ [1, 2, 28]

theorem sample_transfer_read_back :
    (∃ preimage, signingPreimage sampleTransfer = .ok preimage ∧
      Rlp.decode preimage = some (.list
        [integerItem 0, integerItem 0, integerItem 0, .bytes (List.replicate 20 1), integerItem 0, .bytes [0xab],
          integerItem 97, .bytes [], .bytes []])) ∧
    ∃ encoded, Rlp.decode encoded = some (.list
        [integerItem 0, integerItem 0, integerItem 0, .bytes (List.replicate 20 1), integerItem 0, .bytes [0xab],
          integerItem 230, integerItem 5, integerItem 0x102]) := by
  have hdata : decodeHex sampleTransfer.data = .ok [0xab] := by decide
  have hsize : sampleTransfer.data.length < 2 ^ 64 := by decide
  obtain ⟨preimage, -, hp, hd⟩ := transaction_encoding_faithful.1 sampleTransfer [0xab] hdata hsize
  obtain ⟨encoded, -, he⟩ := transaction_encoding_faithful.2.2 sampleTransfer [0xab] (encodeHex sampleSignature)
    sampleSignature hdata hsize (by decide +kernel) (by decide) (by decide)
  exact ⟨⟨preimage, hp, hd⟩, encoded, he⟩

end PredictFun.Chain
