import PredictFun.Codec.Integers
import PredictFun.Trading.Client
import PredictFun.Types.Chain

namespace PredictFun

open Base Codec

namespace Codec

inductive Scalar
  | text (value : Bytes)
  | integer (value : ℕ)

abbrev Members := List (Bytes × Scalar)

def orderMembers (wire : WireContractOrderWrite) : Members :=
  [(ascii "hash", .text wire.hash), (ascii "salt", .text wire.salt), (ascii "maker", .text wire.maker),
    (ascii "signer", .text wire.signer), (ascii "taker", .text wire.taker), (ascii "tokenId", .text wire.tokenId),
    (ascii "makerAmount", .text wire.makerAmount), (ascii "takerAmount", .text wire.takerAmount),
    (ascii "expiration", .integer wire.expiration.toNat), (ascii "nonce", .text wire.nonce),
    (ascii "feeRateBps", .text wire.feeRateBps), (ascii "side", .integer wire.side.toNat),
    (ascii "signatureType", .integer wire.signatureType.toNat), (ascii "signature", .text wire.signature)]

/-- A member that has to be a text. The outer `none` is an error of the JSON library. -/
def textMember (members : Members) (name : String) : Option (Option Bytes) :=
  match members.lookup (ascii name) with
  | none => some none
  | some (.text value) => some (some value)
  | some (.integer _) => none

def uint32Member (members : Members) (name : String) : Option (Option (BitVec 32)) :=
  match members.lookup (ascii name) with
  | none => some none
  | some (.integer value) => if value < 2 ^ 32 then some (some (BitVec.ofNat 32 value)) else none
  | some (.text _) => none

def readOrder (raw : Scalar → RawJson) (members : Members) : Option WireContractOrder := do
  let rawMember := fun name => (members.lookup (ascii name)).map raw
  let hash ← textMember members "hash"
  let maker ← textMember members "maker"
  let signer ← textMember members "signer"
  let taker ← textMember members "taker"
  let side ← uint32Member members "side"
  let signatureType ← uint32Member members "signatureType"
  let signature ← textMember members "signature"
  return { hash, maker, signer, taker, side, signatureType, signature
           salt := rawMember "salt"
           tokenId := rawMember "tokenId"
           makerAmount := rawMember "makerAmount"
           takerAmount := rawMember "takerAmount"
           expiration := rawMember "expiration"
           nonce := rawMember "nonce"
           feeRateBps := rawMember "feeRateBps" }

/-- The JSON library gives back the texts and integers it was given: `order` reads the order object inside a request. -/
structure RoundTrips (json : TradingJson) (reader : RestReader) (order : Bytes → Option WireContractOrder) : Prop where
  scalars : ∃ raw : Scalar → RawJson,
    (∀ value, quoted (raw (.text value)) = true ∧ reader.string (raw (.text value)) = some value) ∧
    (∀ value, raw (.integer value) = decimalText value) ∧
    ∀ wire, ∃ body, json.write wire = some body ∧ order body = readOrder raw (orderMembers wire.data.order)

end Codec

namespace Trading

section

variable {reader : RestReader} {raw : Scalar → RawJson}

theorem uint256_text (hr : ∀ value, quoted (raw (.text value)) = true ∧ reader.string (raw (.text value)) = some value)
    (value : Uint256) (field : Bytes) : reader.uint256 (raw (.text value.text)) field = .ok value := by
  rw [RestReader.uint256, RestReader.rawScalar, if_pos (hr value.text).1, (hr value.text).2]
  change atField field (Uint256.parse value.text) = _
  rw [value.parse_text]
  rfl

theorem quoted_decimalText (n : ℕ) : quoted (decimalText n) = false := by
  cases ht : decimalText n with
  | nil => rfl
  | cons c cs =>
    have hc := isDigit_decimalText n c (by rw [ht]; exact List.mem_cons_self)
    have hne : c ≠ byte '"' := by
      rintro rfl
      exact absurd hc (by decide)
    simp [quoted, hne]

theorem uint256_integer (hi : ∀ value, raw (.integer value) = decimalText value) {value : Uint256} (field : Bytes) :
    reader.uint256 (raw (.integer value.toNat)) field = .ok value := by
  obtain ⟨parsed, hp, hv⟩ := Uint256.parse_decimalText value.toNat_lt
  rw [RestReader.uint256, RestReader.rawScalar, hi, if_neg (by rw [quoted_decimalText]; decide)]
  change atField field (Uint256.parse _) = _
  rw [hp, Uint256.toNat_injective hv]
  rfl

theorem parse_text_address {address : EvmAddress} (h : address.empty = false) : EvmAddress.parse address.text = .ok address := by
  have hd : address.text.drop 2 = hexText address.bytes := List.drop_left' rfl
  have hl : ¬(address.text.length ≠ 42 ∨ address.text.take 2 ≠ ascii "0x") := by
    rw [not_or, not_not, not_not]
    refine ⟨?_, List.take_left' rfl⟩
    rw [EvmAddress.text, List.length_append, length_hexText, address.size]
    rfl
  unfold EvmAddress.parse
  rw [dif_neg hl]
  split
  · next hn =>
    rw [hd, hexBytes_hexText] at hn
    cases hn
  · next bytes hb =>
    have he : bytes = address.bytes := by
      rw [hd, hexBytes_hexText] at hb
      exact (Option.some.inj hb).symm
    subst he
    rw [if_neg (by rw [show address.bytes.all _ = false from h]; decide)]

end

def zeroAddressText : Bytes := ascii "0x0000000000000000000000000000000000000000"

theorem text_of_empty {address : EvmAddress} (h : address.empty = true) : address.text = zeroAddressText := by
  have hb : address.bytes = List.replicate 20 0 := by
    refine List.eq_replicate_iff.mpr ⟨address.size, fun b hb => ?_⟩
    simpa using List.all_eq_true.mp h b hb
  rw [EvmAddress.text, hb]
  decide

theorem text_ne_zero {address : EvmAddress} (h : address.empty = false) : address.text ≠ zeroAddressText := by
  intro he
  have hp := parse_text_address h
  rw [he] at hp
  have hz : (EvmAddress.parse zeroAddressText).toOption = none := by decide
  rw [hp] at hz
  cases hz

theorem takerAddress_wire (request : CreateOrderRequest) (expires : BitVec 64) (field : Bytes) :
    takerAddress (wireCreateOrder request expires).data.order.taker field =
      .ok (request.order.taker.filter (fun taker => !taker.empty)) := by
  simp only [wireCreateOrder]
  cases request.order.taker with
  | none => exact if_pos rfl
  | some taker =>
    cases he : taker.empty with
    | true => simp [takerAddress, text_of_empty he, Option.filter, he, zeroAddressText]
    | false =>
      have hne : ¬taker.text = ascii "0x0000000000000000000000000000000000000000" := text_ne_zero he
      simp [takerAddress, hne, parse_text_address he, Option.filter, he, atField, Except.mapError, Except.map]

theorem expiration_ok {value : Uint256} (h : value.toNat ≤ 2 ^ 63 - 1) :
    ∃ expires, expiration value = .ok expires ∧ expires.toNat = value.toNat := by
  refine ⟨BitVec.ofNat 64 value.toNat, ?_, ?_⟩
  · rw [expiration, if_neg (by omega), if_neg (by omega)]
  · rw [BitVec.toNat_ofNat, Nat.mod_eq_of_lt (by omega)]

variable {request : CreateOrderRequest}

theorem validateCreateOrder_enums {key : Bytes} (h : validateCreateOrder request = .ok key) :
    request.order.side ≠ .unknown ∧ request.order.signatureType ≠ .unknown := by
  unfold validateCreateOrder at h
  split_ifs at h with h1 h2 h3 h4 <;> cases h
  constructor
  · intro hs
    exact h3 (by rw [hs]; decide)
  · intro ht
    exact h4 (by rw [ht]; decide)

structure SameOrder (decoded : ContractOrder) (hash : Bytes) (order : SignedOrder) : Prop where
  hash : decoded.hash = hash
  salt : decoded.salt = order.salt
  maker : decoded.maker = order.maker
  signer : decoded.signer = order.signer
  taker : decoded.taker = order.taker.filter (fun taker => !taker.empty)
  tokenId : decoded.tokenId = order.tokenId
  makerAmount : decoded.makerAmount = order.makerAmount
  takerAmount : decoded.takerAmount = order.takerAmount
  expiration : decoded.expiration = order.expiration
  nonce : decoded.nonce = order.nonce
  feeRateBps : decoded.feeRateBps = order.feeRateBps
  side : decoded.side.value = order.side
  signatureType : decoded.signatureType.value = order.signatureType
  signature : decoded.signature = order.signature

theorem readOrder_orderMembers (raw : Scalar → RawJson) (wire : WireContractOrderWrite) :
    readOrder raw (orderMembers wire) = some
      { hash := some wire.hash
        salt := some (raw (.text wire.salt))
        maker := some wire.maker
        signer := some wire.signer
        taker := some wire.taker
        tokenId := some (raw (.text wire.tokenId))
        makerAmount := some (raw (.text wire.makerAmount))
        takerAmount := some (raw (.text wire.takerAmount))
        expiration := some (raw (.integer wire.expiration.toNat))
        nonce := some (raw (.text wire.nonce))
        feeRateBps := some (raw (.text wire.feeRateBps))
        side := some wire.side
        signatureType := some wire.signatureType
        signature := some wire.signature } := by
  have hside : uint32Member (orderMembers wire) "side" = some (some wire.side) := by
    change (if wire.side.toNat < 2 ^ 32 then some (some (BitVec.ofNat 32 wire.side.toNat)) else none) = _
    rw [if_pos wire.side.isLt, BitVec.ofNat_toNat, BitVec.setWidth_eq]
  have htype : uint32Member (orderMembers wire) "signatureType" = some (some wire.signatureType) := by
    change (if wire.signatureType.toNat < 2 ^ 32 then some (some (BitVec.ofNat 32 wire.signatureType.toNat)) else none) = _
    rw [if_pos wire.signatureType.isLt, BitVec.ofNat_toNat, BitVec.setWidth_eq]
  rw [readOrder, hside, htype]
  rfl

theorem contractSide_wire (expires : BitVec 64) (h : request.order.side ≠ .unknown) :
    (contractSide (wireCreateOrder request expires).data.order.side).value = request.order.side := by
  simp only [wireCreateOrder]
  cases hs : request.order.side with
  | buy => rfl
  | sell => rfl
  | unknown => exact absurd hs h

theorem signatureType_wire (expires : BitVec 64) (h : request.order.signatureType ≠ .unknown) :
    (signatureType (wireCreateOrder request expires).data.order.signatureType).value = request.order.signatureType := by
  simp only [wireCreateOrder]
  cases ht : request.order.signatureType with
  | unknown => exact absurd ht h
  | _ => rfl

def Scalar.sum : Scalar → Bytes ⊕ ℕ
  | .text value => .inl value
  | .integer value => .inr value

instance : Countable Scalar := by
  refine Function.Injective.countable (f := Scalar.sum) ?_
  intro a b h
  cases a <;> cases b <;> cases h <;> rfl

def plainText : Scalar → RawJson
  | .text value => byte '"' :: value ++ [byte '"']
  | .integer value => decimalText value

/-- Requests are numbers of the order objects in them, and texts are put between quotation marks. -/
theorem exists_roundTrips : ∃ json reader order, RoundTrips json reader order := by
  obtain ⟨number, hn⟩ := exists_injective_nat Members
  refine ⟨⟨fun wire => some (List.replicate (number (orderMembers wire.data.order)) 0), fun _ => none⟩,
    ⟨fun text => some text.tail.dropLast, fun _ => none, fun _ => none⟩,
    fun body => readOrder plainText (Function.invFun number body.length),
    ⟨plainText, fun value => ⟨?_, ?_⟩, fun value => rfl, fun wire => ⟨_, rfl, ?_⟩⟩⟩
  · simp only [quoted, plainText, List.getLast?_concat]
    simp
  · simp [plainText]
  · rw [List.length_replicate, Function.leftInverse_invFun hn]

def sampleOne : Uint256 := .one

def sampleWireRequest : CreateOrderRequest where
  order :=
    { salt := sampleOne
      maker := .filled 1
      signer := .filled 2
      taker := some (.filled 0)
      tokenId := sampleOne
      makerAmount := sampleOne
      takerAmount := sampleOne
      expiration := sampleOne
      nonce := sampleOne
      feeRateBps := sampleOne
      side := .sell
      signatureType := .polyProxy
      signature := ascii "0x01" }
  orderHash := ascii "0x" ++ List.replicate 64 (byte '0')
  pricePerShareWei := sampleOne
  strategy := .limit
  slippageBps := none
  isFillOrKill := none
  isPostOnly := none
  reservedBalancePolicy := none
  isMinAmountOut := none
  selfTradePrevention := none

end Trading

end PredictFun
