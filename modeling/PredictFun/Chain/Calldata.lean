import PredictFun.Base.ContractAbi
import PredictFun.Chain.Operations

namespace PredictFun.Chain

open Base BigEndian ContractAbi

theorem decodeHex_encodeHex (bytes : Bytes) : decodeHex (encodeHex bytes) = .ok bytes := by
  have hl : (encodeHex bytes).length = 2 + 2 * bytes.length := by
    rw [encodeHex, List.length_append, length_hexText]
    rfl
  have ht : (encodeHex bytes).take 2 = ascii "0x" := List.take_left' rfl
  have hd : (encodeHex bytes).drop 2 = hexText bytes := List.drop_left' rfl
  rw [decodeHex, if_neg (by rw [ht, hl]; simp), hd, hexBytes_hexText]

theorem word_ok (value : Uint256) : word value = .ok (wordOf value.toNat) := by
  have h := value.toNat_lt
  rw [word, if_neg]
  rw [not_not, Nat.div_eq_zero_iff]
  right
  norm_num at h ⊢
  exact h

theorem uintWord_ok {n : ℕ} (h : n < 2 ^ 256) : uintWord n = .ok (wordOf n) := by
  obtain ⟨value, hp, rfl⟩ := Uint256.parse_decimalText h
  rw [uintWord, hp]
  exact word_ok value

theorem sizeWord_ok {n : ℕ} (h : n < 2 ^ 256) : sizeWord n = .ok (wordOf n) := by
  have hu := uintWord_ok h
  rw [uintWord] at hu
  rw [sizeWord, hu]

theorem mapM_ok {α β : Type} {f : α → Result β} {g : α → β} {l : List α} (h : ∀ a ∈ l, f a = .ok (g a)) :
    l.mapM f = .ok (l.map g) := by
  induction l with
  | nil => rfl
  | cons a l ih =>
    rw [List.mapM_cons, h a List.mem_cons_self, ih (fun b hb => h b (List.mem_cons_of_mem _ hb))]
    rfl

theorem filling_eq (size : ℕ) : List.replicate ((size + 31) / 32 * 32 - size) (0 : Byte) = Codec.filling size := by
  unfold Codec.filling
  congr 1
  omega

/-- The calldata begins with the selector, and its arguments are read as the given ones with nothing left over. -/
def ReadsAs {α : Type} (fields : Fields α) (hash : Hash32) (outcome : Result Bytes) (arguments : α) : Prop :=
  ∃ calldata body, outcome = .ok calldata ∧ decodeHex calldata = .ok (hash.bytes.take 4 ++ body) ∧
    decodeArguments fields body = some arguments

theorem readsAs_encode {α : Type} {fields : Fields α} {hash : Hash32} {outcome : Result Bytes} {arguments : α}
    (he : outcome = .ok (encodeHex (hash.bytes.take 4 ++ (Codec.tuple fields).encode arguments)))
    (hv : (Codec.tuple fields).valid arguments) : ReadsAs fields hash outcome arguments :=
  ⟨_, _, he, decodeHex_encodeHex _, decodeArguments_encode hv⟩

def wordFields (n : ℕ) : Fields (List Bytes) := (Fields.single (Codec.padded 32 (le_refl 32))).all n

def uintArrayFields (before after : ℕ) : Fields (List Bytes × List ℕ × List Bytes) :=
  (wordFields before).append ((Fields.single (Codec.array (Codec.uint 256 (le_refl 256)))).append (wordFields after))

def bytesFields (before : ℕ) : Fields (List Bytes × Bytes) := (wordFields before).append (Fields.single Codec.bytes)

theorem wordFields_heads (n offset : ℕ) (words : List Bytes) : (wordFields n).heads offset words = words.flatten := by
  induction words generalizing offset with
  | nil => rfl
  | cons word words ih => exact congrArg (word ++ ·) (ih offset)

theorem wordFields_tails (n : ℕ) (words : List Bytes) : (wordFields n).tails words = [] := by
  induction words with
  | nil => rfl
  | cons word words ih => exact ih

theorem wordFields_valid (words : List Bytes32) : (wordFields words.length).valid (words.map Bytes32.bytes) := by
  refine ⟨List.length_map _, fun bytes hb => ?_⟩
  obtain ⟨word, -, rfl⟩ := List.mem_map.mp hb
  exact word.size

theorem uints_heads (offset : ℕ) (values : List ℕ) :
    (Fields.single (Codec.uint 256 (le_refl 256))).allHeads offset values = values.flatMap (fixed 32) := by
  induction values generalizing offset with
  | nil => rfl
  | cons value values ih => exact congrArg (fixed 32 value ++ ·) (ih offset)

theorem uints_tails (values : List ℕ) :
    values.flatMap (Fields.single (Codec.uint 256 (le_refl 256))).tails = [] := by
  induction values with
  | nil => rfl
  | cons value values ih => exact ih

theorem encode_bytes (words : List Bytes32) (value : Bytes) :
    (Codec.tuple (bytesFields words.length)).encode (words.map Bytes32.bytes, value) =
      words.flatMap Bytes32.bytes ++ (fixed 32 ((words.length + 1) * 32) ++
        (fixed 32 value.length ++ (value ++ Codec.filling value.length))) := by
  change ((wordFields words.length).heads _ (words.map Bytes32.bytes) ++ fixed 32 _) ++
    ((wordFields words.length).tails _ ++ (fixed 32 value.length ++ (value ++ Codec.filling value.length))) = _
  rw [wordFields_heads, wordFields_tails, List.append_assoc, List.nil_append, List.length_nil, Nat.add_zero, Nat.add_mul]
  rfl

theorem encode_uintArray (before after : List Bytes32) (values : List Uint256) :
    (Codec.tuple (uintArrayFields before.length after.length)).encode
        (before.map Bytes32.bytes, values.map Uint256.toNat, after.map Bytes32.bytes) =
      before.flatMap Bytes32.bytes ++ (fixed 32 ((before.length + 1 + after.length) * 32) ++
        (after.flatMap Bytes32.bytes ++ (fixed 32 values.length ++ (values.map Uint256.toNat).flatMap (fixed 32)))) := by
  change ((wordFields before.length).heads _ _ ++ (fixed 32 _ ++ (wordFields after.length).heads _ _)) ++
    ((wordFields before.length).tails _ ++ ((fixed 32 _ ++ (Fields.allHeads _ _ _ ++ List.flatMap _ _)) ++
      (wordFields after.length).tails _)) = _
  have hsize : (uintArrayFields before.length after.length).headSize = (before.length + 1 + after.length) * 32 := by
    change before.length * 32 + (32 + after.length * 32) = _
    ring
  rw [wordFields_heads, wordFields_heads, wordFields_tails, wordFields_tails, uints_heads, uints_tails, hsize]
  simp only [List.append_assoc, List.nil_append, List.append_nil, List.length_nil, Nat.add_zero, List.length_map]
  rfl

theorem length_encode_bytes (value : Bytes) : (Codec.bytes.encode value).length = 32 + (value.length + 31) / 32 * 32 := by
  change (fixed 32 value.length ++ (value ++ Codec.filling value.length)).length = _
  rw [List.length_append, List.length_append, length_fixed, ← filling_eq, List.length_replicate]
  omega

theorem uints_valid {values : List Uint256} (h : values.length * 32 < 256 ^ 32) :
    (Codec.array (Codec.uint 256 (le_refl 256))).valid (values.map Uint256.toNat) := by
  refine ⟨?_, ⟨rfl, fun n hn => ?_⟩, ?_⟩
  · rw [List.length_map]
    omega
  · obtain ⟨value, -, rfl⟩ := List.mem_map.mp hn
    exact value.toNat_lt
  · change (values.map Uint256.toNat).length * 32 + (List.flatMap _ _).length < 256 ^ 32
    rw [uints_tails, List.length_map, List.length_nil]
    omega

theorem length_encode_uints (values : List Uint256) :
    ((Codec.array (Codec.uint 256 (le_refl 256))).encode (values.map Uint256.toNat)).length = 32 + values.length * 32 := by
  change (fixed 32 _ ++ (Fields.allHeads _ _ _ ++ List.flatMap _ _)).length = _
  rw [uints_heads, uints_tails, List.append_nil, List.length_append, length_fixed, List.length_flatMap]
  simp [Function.comp_def, length_fixed]

theorem flatMap_wordOf (values : List Uint256) :
    (values.map (fun value => wordOf value.toNat)).flatMap Bytes32.bytes = (values.map Uint256.toNat).flatMap (fixed 32) := by
  rw [List.flatMap_map, List.flatMap_map]
  rfl

theorem bytes_call_read_back {keccak : Bytes → Result Hash32} {signature : String} {hash : Hash32}
    (hk : keccak (ascii signature) = .ok hash) (words : List Bytes32) (value : Bytes)
    (hs : 4 + (words.length + 2) * 32 + (value.length + 31) / 32 * 32 < 2 ^ 64) :
    ReadsAs (bytesFields words.length) hash (encodeCallWithBytes keccak signature words value)
      (words.map Bytes32.bytes, value) := by
  refine readsAs_encode ?_ ⟨⟨wordFields_valid words, ?_⟩, ?_⟩
  · have ho : sizeWord ((words.length + 1) * 32) = .ok (wordOf ((words.length + 1) * 32)) := sizeWord_ok (by omega)
    have hl : sizeWord value.length = .ok (wordOf value.length) := sizeWord_ok (by omega)
    simp only [encode_bytes, encodeCallWithBytes, hk, ho, hl, bind, Except.bind, filling_eq, List.append_assoc]
    rfl
  · change value.length < 256 ^ 32
    omega
  · change words.length * 32 + 32 + ((wordFields words.length).tails _ ++ _).length < 256 ^ 32
    rw [wordFields_tails]
    change words.length * 32 + 32 + (Codec.bytes.encode value).length < 256 ^ 32
    rw [length_encode_bytes]
    omega

theorem uintArray_call_read_back {keccak : Bytes → Result Hash32} {signature : String} {hash : Hash32}
    (hk : keccak (ascii signature) = .ok hash) (before : List Bytes32) (values : List Uint256) (after : List Bytes32)
    (hs : 4 + (before.length + 1 + after.length + 1 + values.length) * 32 < 2 ^ 64) :
    ReadsAs (uintArrayFields before.length after.length) hash (encodeCallWithUintArray keccak signature before values after)
      (before.map Bytes32.bytes, values.map Uint256.toNat, after.map Bytes32.bytes) := by
  refine readsAs_encode ?_ ⟨⟨wordFields_valid before, uints_valid (by omega), wordFields_valid after⟩, ?_⟩
  · have ho : sizeWord ((before.length + 1 + after.length) * 32) = .ok (wordOf ((before.length + 1 + after.length) * 32)) :=
      sizeWord_ok (by omega)
    have hl : sizeWord values.length = .ok (wordOf values.length) := sizeWord_ok (by omega)
    have hw : values.mapM word = .ok (values.map (fun value => wordOf value.toNat)) := mapM_ok (fun value _ => word_ok value)
    simp only [encode_uintArray, encodeCallWithUintArray, hk, ho, hl, hw, bind, Except.bind, flatMap_wordOf, List.append_assoc]
    rfl
  · change before.length * 32 + (32 + after.length * 32) + ((wordFields before.length).tails _ ++
      ((Codec.array (Codec.uint 256 (le_refl 256))).encode _ ++ (wordFields after.length).tails _)).length < 256 ^ 32
    rw [wordFields_tails, wordFields_tails, List.nil_append, List.append_nil, length_encode_uints]
    omega

section

abbrev OrderTuple := ℕ × Bytes × Bytes × Bytes × ℕ × ℕ × ℕ × ℕ × ℕ × ℕ × ℕ × ℕ × Bytes

def orderFields : Fields OrderTuple :=
  let uint256 := Fields.single (Codec.uint 256 (le_refl 256))
  let address := Fields.single (Codec.padded 20 (by norm_num))
  let uint8 := Fields.single (Codec.uint 8 (by norm_num))
  uint256.append (address.append (address.append (address.append (uint256.append (uint256.append (uint256.append
    (uint256.append (uint256.append (uint256.append (uint8.append (uint8.append (Fields.single Codec.bytes))))))))))))

def cancelFields : Fields (List OrderTuple) := Fields.single (Codec.array (Codec.tuple orderFields))

def orderSignature (order : SignedOrder) : Bytes :=
  match decodeHex order.signature with
  | .ok bytes => bytes
  | .error _ => []

def takerBytes (order : SignedOrder) : Bytes := (order.taker.map EvmAddress.bytes).getD (List.replicate 20 0)

def orderTuple (order : SignedOrder) : OrderTuple :=
  (order.salt.toNat, order.maker.bytes, order.signer.bytes, takerBytes order, order.tokenId.toNat, order.makerAmount.toNat,
    order.takerAmount.toNat, order.expiration.toNat, order.nonce.toNat, order.feeRateBps.toNat, order.side.number,
    order.signatureType.number, orderSignature order)

def cancelSize (orders : List SignedOrder) : ℕ :=
  4 + 64 + (orders.map (fun order => 15 * 32 + ((orderSignature order).length + 31) / 32 * 32)).sum

variable (order : SignedOrder)

theorem length_takerBytes : (takerBytes order).length = 20 := by
  unfold takerBytes
  cases order.taker with
  | none => rfl
  | some taker => exact taker.size

theorem takerWord :
    ((order.taker.map addressWord).getD zeroWord).bytes = List.replicate 12 0 ++ takerBytes order := by
  unfold takerBytes
  cases order.taker with
  | none => decide
  | some taker => rfl

theorem orderWords_ok :
    orderWords order = .ok [wordOf order.salt.toNat, addressWord order.maker, addressWord order.signer,
      (order.taker.map addressWord).getD zeroWord, wordOf order.tokenId.toNat, wordOf order.makerAmount.toNat,
      wordOf order.takerAmount.toNat, wordOf order.expiration.toNat, wordOf order.nonce.toNat, wordOf order.feeRateBps.toNat,
      wordOf order.side.number, wordOf order.signatureType.number] := by
  have hs : uintWord order.side.number = .ok (wordOf order.side.number) := uintWord_ok (by cases order.side <;> decide)
  have ht : uintWord order.signatureType.number = .ok (wordOf order.signatureType.number) :=
    uintWord_ok (by cases order.signatureType <;> decide)
  simp only [orderWords, word_ok, hs, ht, bind, Except.bind]
  rfl

variable {order : SignedOrder}

theorem decodeHex_signature (h : orderSignature order ≠ []) :
    decodeHex order.signature = .ok (orderSignature order) := by
  unfold orderSignature at h ⊢
  cases hd : decodeHex order.signature with
  | error e => simp [hd] at h
  | ok bytes => rfl

theorem encode_orderTuple : (Codec.tuple orderFields).encode (orderTuple order) =
    fixed 32 order.salt.toNat ++ (List.replicate 12 0 ++ (order.maker.bytes ++ (List.replicate 12 0 ++ (order.signer.bytes ++
      (List.replicate 12 0 ++ (takerBytes order ++ (fixed 32 order.tokenId.toNat ++ (fixed 32 order.makerAmount.toNat ++
      (fixed 32 order.takerAmount.toNat ++ (fixed 32 order.expiration.toNat ++ (fixed 32 order.nonce.toNat ++
      (fixed 32 order.feeRateBps.toNat ++ (fixed 32 order.side.number ++ (fixed 32 order.signatureType.number ++
      (fixed 32 (13 * 32) ++ Codec.bytes.encode (orderSignature order)))))))))))))))) := by
  change (_ ++ (_ ++ (_ ++ (_ ++ (_ ++ (_ ++ (_ ++ (_ ++ (_ ++ (_ ++ (_ ++ (_ ++ _)))))))))))) ++
    Codec.bytes.encode (orderSignature order) = _
  simp only [List.append_assoc]
  rfl

theorem encodeOrderTuple_ok (h : orderSignature order ≠ []) (hs : (orderSignature order).length < 2 ^ 256) :
    encodeOrderTuple order = .ok ((Codec.tuple orderFields).encode (orderTuple order)) := by
  have ho : uintWord (13 * 32) = .ok (wordOf (13 * 32)) := uintWord_ok (by norm_num)
  have hl : uintWord (orderSignature order).length = .ok (wordOf (orderSignature order).length) := uintWord_ok hs
  rw [encodeOrderTuple, orderWords_ok, decodeHex_signature h, encode_orderTuple]
  cases hb : orderSignature order with
  | nil => exact absurd hb h
  | cons byte bytes =>
    rw [hb] at hl
    simp only [ho, hl, List.flatMap_cons, List.flatMap_nil, takerWord, filling_eq, List.append_assoc]
    rfl

theorem orderTuple_valid (hs : cancelSize [order] < 2 ^ 64) : (Codec.tuple orderFields).valid (orderTuple order) := by
  have hside : order.side.number < 2 ^ 8 := by cases order.side <;> decide
  have htype : order.signatureType.number < 2 ^ 8 := by cases order.signatureType <;> decide
  simp only [cancelSize, List.map_cons, List.map_nil, List.sum_cons, List.sum_nil] at hs
  refine ⟨⟨order.salt.toNat_lt, order.maker.size, order.signer.size, length_takerBytes order, order.tokenId.toNat_lt,
    order.makerAmount.toNat_lt, order.takerAmount.toNat_lt, order.expiration.toNat_lt, order.nonce.toNat_lt,
    order.feeRateBps.toNat_lt, hside, htype, ?_⟩, ?_⟩
  · change (orderSignature order).length < 256 ^ 32
    omega
  · change 13 * 32 + (Codec.bytes.encode (orderSignature order)).length < 256 ^ 32
    rw [length_encode_bytes]
    omega

theorem length_encode_orderTuple : ((Codec.tuple orderFields).encode (orderTuple order)).length =
    14 * 32 + ((orderSignature order).length + 31) / 32 * 32 := by
  simp only [encode_orderTuple, List.length_append, length_fixed, List.length_replicate, order.maker.size, order.signer.size,
    length_takerBytes, length_encode_bytes]
  omega

theorem tupleOffsets_ok (offset : ℕ) (values : List OrderTuple)
    (hs : offset + (values.flatMap (Codec.tuple orderFields).encode).length < 2 ^ 256) :
    ∃ offsets, tupleOffsets offset (values.map (Codec.tuple orderFields).encode) = .ok offsets ∧
      offsets.flatMap Bytes32.bytes = (Fields.single (Codec.tuple orderFields)).allHeads offset values := by
  induction values generalizing offset with
  | nil => exact ⟨[], rfl, rfl⟩
  | cons value values ih =>
    rw [List.flatMap_cons, List.length_append] at hs
    obtain ⟨offsets, ho, hh⟩ := ih (offset + ((Codec.tuple orderFields).encode value).length) (by omega)
    refine ⟨wordOf offset :: offsets, ?_, ?_⟩
    · rw [List.map_cons, tupleOffsets, uintWord_ok (by omega)]
      change (tupleOffsets _ _ >>= _) = _
      rw [ho]
      rfl
    · rw [List.flatMap_cons, hh]
      rfl

theorem length_encoded (orders : List SignedOrder) :
    orders.length * 32 + ((orders.map orderTuple).flatMap (Codec.tuple orderFields).encode).length + 68 = cancelSize orders := by
  induction orders with
  | nil => rfl
  | cons order orders ih =>
    simp only [cancelSize, List.map_cons, List.sum_cons, List.flatMap_cons, List.length_append, length_encode_orderTuple,
      List.length_cons] at ih ⊢
    omega

theorem encode_cancel (orders : List SignedOrder) : (Codec.tuple cancelFields).encode (orders.map orderTuple) =
    fixed 32 32 ++ (fixed 32 orders.length ++ ((Fields.single (Codec.tuple orderFields)).allHeads (orders.length * 32)
      (orders.map orderTuple) ++ ((orders.map orderTuple).map (Codec.tuple orderFields).encode).flatten)) := by
  change fixed 32 _ ++ (fixed 32 _ ++ (Fields.allHeads _ ((orders.map orderTuple).length * 32) _ ++ List.flatMap _ _)) = _
  rw [List.length_map]
  rfl

theorem cancelSize_mem {orders : List SignedOrder} (h : order ∈ orders) :
    cancelSize [order] ≤ cancelSize orders := by
  have hle := List.single_le_sum (l := orders.map (fun order => 15 * 32 + ((orderSignature order).length + 31) / 32 * 32))
    (fun _ _ => Nat.zero_le _) _ (List.mem_map_of_mem h)
  simpa [cancelSize] using hle

theorem cancelOrders_call_read_back {keccak : Bytes → Result Hash32} {hash : Hash32}
    (hk : keccak (ascii cancelOrdersSignature) = .ok hash) (orders : List SignedOrder)
    (hh : ∀ order ∈ orders, orderSignature order ≠ []) (hs : cancelSize orders < 2 ^ 64) :
    ReadsAs cancelFields hash (encodeCancelOrders keccak orders) (orders.map orderTuple) := by
  have hsize := length_encoded orders
  have hv : ∀ tuple ∈ orders.map orderTuple, (Fields.single (Codec.tuple orderFields)).valid tuple := by
    intro tuple ht
    obtain ⟨order, ho, rfl⟩ := List.mem_map.mp ht
    exact orderTuple_valid ((cancelSize_mem ho).trans_lt hs)
  refine readsAs_encode ?_ ⟨⟨?_, ⟨rfl, hv⟩, ?_⟩, ?_⟩
  · have hr : uintWord 32 = .ok (wordOf 32) := uintWord_ok (by norm_num)
    have hc : uintWord orders.length = .ok (wordOf orders.length) := uintWord_ok (by omega)
    have ht : orders.mapM encodeOrderTuple = .ok ((orders.map orderTuple).map (Codec.tuple orderFields).encode) := by
      rw [List.map_map]
      refine mapM_ok (fun order ho => encodeOrderTuple_ok (hh order ho) ?_)
      have hle := cancelSize_mem ho
      simp only [cancelSize, List.map_cons, List.map_nil, List.sum_cons, List.sum_nil] at hle hs
      omega
    obtain ⟨offsets, ho, hb⟩ := tupleOffsets_ok (orders.length * 32) (orders.map orderTuple) (by omega)
    simp only [encodeCancelOrders, hk, hr, hc, ht, ho, bind, Except.bind, hb, encode_cancel, List.append_assoc]
    rfl
  · rw [List.length_map]
    omega
  · change (orders.map orderTuple).length * 32 + ((orders.map orderTuple).flatMap (Codec.tuple orderFields).encode).length <
      256 ^ 32
    rw [List.length_map]
    omega
  · change 32 + (fixed 32 _ ++ (Fields.allHeads _ _ _ ++
      (orders.map orderTuple).flatMap (Codec.tuple orderFields).encode)).length < 256 ^ 32
    rw [List.length_append, List.length_append, length_fixed, Fields.length_allHeads _ hv, List.length_map]
    change 32 + (32 + (orders.length * 32 + _)) < 256 ^ 32
    omega

end

/-- Dynamic calldata of any size that memory can hold is read back by a strict decoder: the words, the numbers and the
bytes, and the tuples of the orders in their order. -/
theorem dynamic_calldata_read_back (keccak : Bytes → Result Hash32) :
    (∀ signature hash before values after, keccak (ascii signature) = .ok hash →
      4 + (before.length + 1 + after.length + 1 + values.length) * 32 < 2 ^ 64 →
      ReadsAs (uintArrayFields before.length after.length) hash (encodeCallWithUintArray keccak signature before values after)
        (before.map Bytes32.bytes, values.map Uint256.toNat, after.map Bytes32.bytes)) ∧
    (∀ signature hash words value, keccak (ascii signature) = .ok hash →
      4 + (words.length + 2) * 32 + (value.length + 31) / 32 * 32 < 2 ^ 64 →
      ReadsAs (bytesFields words.length) hash (encodeCallWithBytes keccak signature words value)
        (words.map Bytes32.bytes, value)) ∧
    ∀ hash orders, keccak (ascii cancelOrdersSignature) = .ok hash → cancelSize orders < 2 ^ 64 →
      (∀ order ∈ orders, orderSignature order ≠ []) →
      ReadsAs cancelFields hash (encodeCancelOrders keccak orders) (orders.map orderTuple) :=
  ⟨fun _ _ before values after hk hs => uintArray_call_read_back hk before values after hs,
    fun _ _ words value hk hs => bytes_call_read_back hk words value hs,
    fun _ orders hk hs hh => cancelOrders_call_read_back hk orders hh hs⟩

def sampleOrder : SignedOrder where
  salt := .zero
  maker := .filled 0x11
  signer := .filled 0x11
  taker := none
  tokenId := .zero
  makerAmount := .zero
  takerAmount := .zero
  expiration := .zero
  nonce := .zero
  feeRateBps := .zero
  side := .sell
  signatureType := .eoa
  signature := ascii "0x010203"

theorem sample_calldata_read_back :
    ReadsAs (uintArrayFields 1 0) zeroWord (encodeCallWithUintArray (fun _ => .ok zeroWord) "f(bytes32,uint256[])" [wordOf 7]
        [.zero, .zero] []) ([(wordOf 7).bytes], [0, 0], []) ∧
    ReadsAs (bytesFields 1) zeroWord (encodeCallWithBytes (fun _ => .ok zeroWord) "execute(bytes32,bytes)" [wordOf 7]
        [1, 2, 3]) ([(wordOf 7).bytes], [1, 2, 3]) ∧
    ReadsAs cancelFields zeroWord (encodeCancelOrders (fun _ => .ok zeroWord) [sampleOrder, sampleOrder])
      [orderTuple sampleOrder, orderTuple sampleOrder] := by
  obtain ⟨harray, hbytes, hcancel⟩ := dynamic_calldata_read_back (fun _ => .ok zeroWord)
  refine ⟨harray _ _ _ _ _ rfl (by decide), hbytes _ _ _ _ rfl (by decide), hcancel _ _ rfl (by decide) ?_⟩
  intro order ho
  simp only [List.mem_cons, List.not_mem_nil, or_false, or_self] at ho
  subst ho
  decide

end PredictFun.Chain
