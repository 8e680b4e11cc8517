import PredictFun.Base.ShiftRegister
import PredictFun.Base.Wire
import PredictFun.Types.Orders

namespace PredictFun

namespace OrderLifecycleState

def all : List OrderLifecycleState :=
  [.submissionPending, .accepted, .open, .partiallyFilled, .filled, .bookRemoved, .cancelled, .expired, .rejected,
    .transactionPending, .transactionFailed, .ambiguous, .unknown]

def raw : OrderLifecycleState → Byte
  | .submissionPending => 0
  | .accepted => 1
  | .open => 2
  | .partiallyFilled => 3
  | .filled => 4
  | .bookRemoved => 5
  | .cancelled => 6
  | .expired => 7
  | .rejected => 8
  | .transactionPending => 9
  | .transactionFailed => 10
  | .ambiguous => 11
  | .unknown => 12

def ofRaw (raw : Byte) : Option OrderLifecycleState := all[raw.toNat]?

theorem ofRaw_raw (state : OrderLifecycleState) : ofRaw state.raw = some state := by
  cases state <;> rfl

theorem raw_of_ofRaw {raw : Byte} {state : OrderLifecycleState} (h : ofRaw raw = some state) : state.raw = raw := by
  have hlt : raw.toNat < 13 := (List.getElem?_eq_some_iff.mp h).1
  have hraw : raw = BitVec.ofNat 8 raw.toNat := by rw [BitVec.ofNat_toNat, BitVec.setWidth_eq]
  rw [ofRaw] at h
  generalize raw.toNat = n at h hlt hraw
  interval_cases n <;> cases h <;> exact hraw.symm

end OrderLifecycleState

namespace Lifecycle

open Base Wire

def crc32 (input : Bytes) : BitVec 32 := ~~~ ShiftRegister.digest 0xedb88320#32 0xffffffff#32 input

def recordVersion : Byte := 1

def flagByte (flag : Bool) : Byte := if flag then 1 else 0

def fixedPart (order : TrackedOrder) : Bytes :=
  [recordVersion, order.state.raw, flagByte order.reconciliationRequired, flagByte order.orderId.isSome] ++
    littleEndian 8 order.streamGeneration ++ littleEndian 8 order.lastEventTimestampMs

def stringFields (order : TrackedOrder) : List Bytes :=
  [order.orderHash, order.orderId.getD [], order.amount.text, order.amountFilled.text, order.reason]

def encode (order : TrackedOrder) (maximum : ℕ) : Result Bytes :=
  match (stringFields order).foldlM appendString (fixedPart order) with
  | none => fail .numericOverflow "lifecycle journal field exceeds uint32 length" ""
  | some payload =>
    if payload.length > maximum then fail .bodyTooLarge "lifecycle journal record exceeds configured bound" ""
    else .ok payload

structure RecordBody where
  generation : BitVec 64
  timestamp : BitVec 64
  hash : Bytes
  orderId : Bytes
  amount : Bytes
  amountFilled : Bytes
  reason : Bytes

def readBody : Parser RecordBody := do
  let generation ← readLe 64 8
  let timestamp ← readLe 64 8
  let hash ← readString
  let orderId ← readString
  let amount ← readString
  let amountFilled ← readString
  let reason ← readString
  return ⟨generation, timestamp, hash, orderId, amount, amountFilled, reason⟩

def decode (payload : Bytes) : Result TrackedOrder :=
  match payload with
  | version :: stateRaw :: reconciliationRequired :: hasOrderId :: rest =>
    if version ≠ recordVersion then fail .journalCorrupt "unsupported lifecycle journal record version" ""
    else
      match OrderLifecycleState.ofRaw stateRaw with
      | none => fail .journalCorrupt "invalid lifecycle state in journal" ""
      | some state =>
        match readBody rest with
        | some (body, []) =>
          match ExactDecimal.parse body.amount, ExactDecimal.parse body.amountFilled with
          | .ok amount, .ok amountFilled =>
            .ok ⟨body.hash, if hasOrderId ≠ 0 then some body.orderId else none, amount, amountFilled, state,
              decide (reconciliationRequired ≠ 0), body.generation, body.timestamp, body.reason⟩
          | _, _ => fail .journalCorrupt "invalid decimal in lifecycle journal" ""
        | _ => fail .journalCorrupt "malformed lifecycle journal record" ""
  | _ => fail .journalCorrupt "unsupported lifecycle journal record version" ""

def payload (order : TrackedOrder) : Bytes := fixedPart order ++ (stringFields order).flatMap block

def FieldsFit (order : TrackedOrder) : Prop := ∀ field ∈ stringFields order, field.length < 2 ^ 32

instance (order : TrackedOrder) : Decidable (FieldsFit order) :=
  inferInstanceAs (Decidable (∀ field ∈ stringFields order, field.length < 2 ^ 32))

theorem encode_ok_iff (order : TrackedOrder) (maximum : ℕ) (bytes : Bytes) :
    encode order maximum = .ok bytes ↔ FieldsFit order ∧ (payload order).length ≤ maximum ∧ bytes = payload order := by
  unfold encode
  rw [foldlM_appendString]
  by_cases hf : ∀ field ∈ stringFields order, field.length < 2 ^ 32
  · rw [if_pos hf]
    dsimp only
    rw [← payload]
    by_cases hl : (payload order).length ≤ maximum
    · rw [if_neg (show ¬(payload order).length > maximum by omega), Except.ok.injEq]
      exact ⟨fun h => ⟨hf, hl, h.symm⟩, fun h => h.2.2.symm⟩
    · rw [if_pos (show (payload order).length > maximum by omega)]
      exact ⟨fun h => (by cases h), fun h => absurd h.2.1 hl⟩
  · rw [if_neg hf]
    exact ⟨fun h => (by cases h), fun h => absurd h.1 hf⟩

variable {order : TrackedOrder} {body : RecordBody}

theorem readBody_fields (h : FieldsFit order) (rest : Bytes) :
    readBody (littleEndian 8 order.streamGeneration ++ (littleEndian 8 order.lastEventTimestampMs ++
      ((stringFields order).flatMap block ++ rest))) =
      some (⟨order.streamGeneration, order.lastEventTimestampMs, order.orderHash, order.orderId.getD [],
        order.amount.text, order.amountFilled.text, order.reason⟩, rest) := by
  have fits : ∀ field ∈ stringFields order, field.length < 2 ^ 32 := h
  simp only [stringFields, List.mem_cons, List.not_mem_nil, or_false, forall_eq_or_imp, forall_eq] at fits
  obtain ⟨hh, hi, ha, hf, hr⟩ := fits
  simp only [stringFields, List.flatMap_cons, List.flatMap_nil, List.append_nil, List.append_assoc]
  rw [readBody, bind_some (readLe_littleEndian (by norm_num) _ _), bind_some (readLe_littleEndian (by norm_num) _ _),
    bind_some (readString_block hh _), bind_some (readString_block hi _), bind_some (readString_block ha _),
    bind_some (readString_block hf _), bind_some (readString_block hr _)]
  rfl

theorem readBody_stable : Stable readBody := by
  refine (readLe_stable 64 8).bind (fun _ => (readLe_stable 64 8).bind (fun _ => ?_))
  refine readString_stable.bind (fun _ => readString_stable.bind (fun _ => readString_stable.bind (fun _ => ?_)))
  exact readString_stable.bind (fun _ => readString_stable.bind (fun _ => Stable.pure _))

theorem decode_payload (h : FieldsFit order) : decode (payload order) = .ok order := by
  have hbody := readBody_fields h []
  rw [List.append_nil] at hbody
  have hid : (if flagByte order.orderId.isSome ≠ 0 then some (order.orderId.getD []) else none) = order.orderId := by
    cases order.orderId <;> rfl
  have hflag : decide (flagByte order.reconciliationRequired ≠ 0) = order.reconciliationRequired := by
    cases order.reconciliationRequired <;> rfl
  rw [payload, fixedPart]
  simp only [List.cons_append, List.nil_append, List.append_assoc, decode, ne_eq, not_true_eq_false, reduceIte,
    OrderLifecycleState.ofRaw_raw, hbody, ExactDecimal.parse_text] at hid hflag ⊢
  rw [hid, hflag]

theorem payload_length (order : TrackedOrder) :
    (payload order).length = 40 + order.orderHash.length + (order.orderId.getD []).length + order.amount.text.length +
      order.amountFilled.text.length + order.reason.length := by
  simp only [payload, fixedPart, stringFields, List.length_append, List.length_cons, List.length_nil, littleEndian_length,
    List.flatMap_cons, List.flatMap_nil, block_length]
  omega

namespace RecordBody

def strings (body : RecordBody) : List Bytes :=
  [body.hash, body.orderId, body.amount, body.amountFilled, body.reason]

def bytes (body : RecordBody) : Bytes :=
  littleEndian 8 body.generation ++ (littleEndian 8 body.timestamp ++ body.strings.flatMap block)

end RecordBody

theorem readBody_eq_some {input rest : Bytes} (h : readBody input = some (body, rest)) :
    input = body.bytes ++ rest ∧ ∀ field ∈ body.strings, field.length < 2 ^ 32 := by
  obtain ⟨generation, r₁, h₁, h⟩ := bind_eq_some h
  obtain ⟨timestamp, r₂, h₂, h⟩ := bind_eq_some h
  obtain ⟨hash, r₃, h₃, h⟩ := bind_eq_some h
  obtain ⟨orderId, r₄, h₄, h⟩ := bind_eq_some h
  obtain ⟨amount, r₅, h₅, h⟩ := bind_eq_some h
  obtain ⟨amountFilled, r₆, h₆, h⟩ := bind_eq_some h
  obtain ⟨reason, r₇, h₇, h⟩ := bind_eq_some h
  cases h
  obtain rfl := readLe_eq_some (by norm_num) h₁
  obtain rfl := readLe_eq_some (by norm_num) h₂
  obtain ⟨b₃, rfl⟩ := readString_eq_some h₃
  obtain ⟨b₄, rfl⟩ := readString_eq_some h₄
  obtain ⟨b₅, rfl⟩ := readString_eq_some h₅
  obtain ⟨b₆, rfl⟩ := readString_eq_some h₆
  obtain ⟨b₇, rfl⟩ := readString_eq_some h₇
  simp only [RecordBody.bytes, RecordBody.strings, List.flatMap_cons, List.flatMap_nil, List.append_nil, List.append_assoc,
    List.mem_cons, List.not_mem_nil, or_false, forall_eq_or_imp, forall_eq]
  exact ⟨trivial, b₃, b₄, b₅, b₆, b₇⟩

structure Denotes (stateRaw flag hasOrderId : Byte) (body : RecordBody) (order : TrackedOrder) : Prop where
  state : OrderLifecycleState.ofRaw stateRaw = some order.state
  reconciliationRequired : order.reconciliationRequired = decide (flag ≠ 0)
  orderId : order.orderId = if hasOrderId ≠ 0 then some body.orderId else none
  streamGeneration : order.streamGeneration = body.generation
  lastEventTimestampMs : order.lastEventTimestampMs = body.timestamp
  orderHash : order.orderHash = body.hash
  amount : order.amount.text = body.amount
  amountFilled : order.amountFilled.text = body.amountFilled
  reason : order.reason = body.reason

theorem decode_inversion {bytes : Bytes} (h : decode bytes = .ok order) :
    ∃ stateRaw flag hasOrderId rest body, bytes = recordVersion :: stateRaw :: flag :: hasOrderId :: rest ∧
      readBody rest = some (body, []) ∧ Denotes stateRaw flag hasOrderId body order := by
  unfold decode at h
  split at h
  next version stateRaw flag hasOrderId rest =>
    split at h
    · cases h
    · next hversion =>
      split at h
      · cases h
      · next state hs =>
        split at h
        next body hb =>
          split at h
          next amount amountFilled ha hf =>
            cases h
            obtain rfl := not_not.mp hversion
            exact ⟨stateRaw, flag, hasOrderId, rest, body, rfl, hb, hs, rfl, rfl, rfl, rfl, rfl, ExactDecimal.parse_ok ha,
              ExactDecimal.parse_ok hf, rfl⟩
          · cases h
        · cases h
  · cases h

theorem Denotes.length_orderId_le {stateRaw flag hasOrderId : Byte}
    (h : Denotes stateRaw flag hasOrderId body order) : (order.orderId.getD []).length ≤ body.orderId.length := by
  rw [h.orderId]
  split_ifs <;> simp

theorem Denotes.fits {stateRaw flag hasOrderId : Byte}
    (h : Denotes stateRaw flag hasOrderId body order) (hfits : ∀ field ∈ body.strings, field.length < 2 ^ 32) :
    FieldsFit order := by
  simp only [RecordBody.strings, List.mem_cons, List.not_mem_nil, or_false, forall_eq_or_imp, forall_eq] at hfits
  simp only [FieldsFit, stringFields, List.mem_cons, List.not_mem_nil, or_false, forall_eq_or_imp, forall_eq]
  rw [h.orderHash, h.amount, h.amountFilled, h.reason]
  exact ⟨hfits.1, lt_of_le_of_lt h.length_orderId_le hfits.2.1, hfits.2.2⟩

theorem decode_fits {bytes : Bytes} (h : decode bytes = .ok order) :
    FieldsFit order ∧ (payload order).length ≤ bytes.length := by
  obtain ⟨stateRaw, flag, hasOrderId, rest, body, rfl, hb, hd⟩ := decode_inversion h
  obtain ⟨rfl, hfits⟩ := readBody_eq_some hb
  refine ⟨hd.fits hfits, ?_⟩
  have hid := hd.length_orderId_le
  rw [payload_length, hd.orderHash, hd.amount, hd.amountFilled, hd.reason]
  simp only [RecordBody.bytes, RecordBody.strings, List.flatMap_cons, List.flatMap_nil, List.append_nil, List.length_cons,
    List.length_append, littleEndian_length, block_length]
  omega

theorem decode_prefix_free {bytes more : Bytes} {first second : TrackedOrder} (h₁ : decode bytes = .ok first)
    (h₂ : decode (bytes ++ more) = .ok second) : more = [] := by
  obtain ⟨s₁, f₁, i₁, rest₁, body₁, rfl, hb₁, -⟩ := decode_inversion h₁
  obtain ⟨s₂, f₂, i₂, rest₂, body₂, he, hb₂, -⟩ := decode_inversion h₂
  simp only [List.cons_append, List.cons.injEq, true_and] at he
  obtain ⟨-, -, -, rfl⟩ := he
  exact readBody_stable.exact_prefix hb₁ hb₂

end Lifecycle

end PredictFun
