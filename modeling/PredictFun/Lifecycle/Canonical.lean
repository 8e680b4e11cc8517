import PredictFun.Base.Cursor
import PredictFun.Lifecycle.Record
import PredictFun.Lifecycle.Tracker

namespace PredictFun.Lifecycle

open Base Wire

-- the decoder with its position in the payload, every access checked
namespace Positions

open Cursor

variable (payload : Bytes)

def readBody : Reader RecordBody := do
  let generation ← Cursor.readLe payload 64 8
  let timestamp ← Cursor.readLe payload 64 8
  let hash ← Cursor.readString payload
  let orderId ← Cursor.readString payload
  let amount ← Cursor.readString payload
  let amountFilled ← Cursor.readString payload
  let reason ← Cursor.readString payload
  return ⟨generation, timestamp, hash, orderId, amount, amountFilled, reason⟩

def decode : Except Fault (Result TrackedOrder) :=
  if payload.length < 4 then .ok (fail .journalCorrupt "unsupported lifecycle journal record version" "")
  else do
    let (version, offset) ← byteAt payload 0
    if version ≠ recordVersion then return fail .journalCorrupt "unsupported lifecycle journal record version" ""
    let (stateRaw, offset) ← byteAt payload offset
    match OrderLifecycleState.ofRaw stateRaw with
    | none => return fail .journalCorrupt "invalid lifecycle state in journal" ""
    | some state =>
      let (reconciliationRequired, offset) ← byteAt payload offset
      let (hasOrderId, offset) ← byteAt payload offset
      match readBody payload offset with
      | .error .outside => .error .outside
      | .error .refused => return fail .journalCorrupt "malformed lifecycle journal record" ""
      | .ok (body, offset) =>
        if offset ≠ payload.length then return fail .journalCorrupt "malformed lifecycle journal record" ""
        match ExactDecimal.parse body.amount, ExactDecimal.parse body.amountFilled with
        | .ok amount, .ok amountFilled =>
          return .ok ⟨body.hash, if hasOrderId ≠ 0 then some body.orderId else none, amount, amountFilled, state,
            decide (reconciliationRequired ≠ 0), body.generation, body.timestamp, body.reason⟩
        | _, _ => return fail .journalCorrupt "invalid decimal in lifecycle journal" ""

theorem readBody_follows : Follows payload (readBody payload) Lifecycle.readBody := by
  refine (readLe_follows 64 8).bind (fun _ => (readLe_follows 64 8).bind (fun _ => ?_))
  refine readString_follows.bind (fun _ => readString_follows.bind (fun _ => readString_follows.bind (fun _ => ?_)))
  exact readString_follows.bind (fun _ => readString_follows.bind (fun _ => Follows.pure _))

/-- No access leaves the payload, and the position walks over exactly what the parser consumes. -/
theorem decode_eq : decode payload = .ok (Lifecycle.decode payload) := by
  match payload with
  | [] | [_] | [_, _] | [_, _, _] => rfl
  | version :: stateRaw :: flag :: hasOrderId :: rest =>
    have hsize : ¬(version :: stateRaw :: flag :: hasOrderId :: rest).length < 4 := by simp
    rw [decode, if_neg hsize, Lifecycle.decode]
    by_cases hversion : version = recordVersion
    · subst hversion
      cases hstate : OrderLifecycleState.ofRaw stateRaw with
      | none => simp [byteAt, hstate, bind, Except.bind, pure, Except.pure]
      | some state =>
        simp only [byteAt, List.length_cons, List.getElem?_cons_zero, List.getElem?_cons_succ, hstate,
          bind, Except.bind, pure, Except.pure, ne_eq, not_true_eq_false, reduceIte]
        rcases readBody_follows (recordVersion :: stateRaw :: flag :: hasOrderId :: rest) 4 (by simp) with
          ⟨hp, hr⟩ | ⟨body, next, hn, hp, hr⟩
        · simp only [List.drop_succ_cons, List.drop_zero] at hp
          rw [hr, hp]
        · simp only [List.drop_succ_cons, List.drop_zero] at hp
          rw [hr, hp]
          by_cases hend : next = (recordVersion :: stateRaw :: flag :: hasOrderId :: rest).length
          · rw [hend, List.drop_length]
            cases hamount : ExactDecimal.parse body.amount <;> cases hfilled : ExactDecimal.parse body.amountFilled <;>
              simp [hamount, hfilled]
          · have hmore : (recordVersion :: stateRaw :: flag :: hasOrderId :: rest).drop next ≠ [] := by
              intro hnil
              exact hend (le_antisymm hn (List.drop_eq_nil_iff.mp hnil))
            rw [List.length_cons, List.length_cons, List.length_cons, List.length_cons] at hend
            obtain ⟨c, cs, hcons⟩ := List.exists_cons_of_ne_nil hmore
            rw [hcons]
            simp [hend]
    · simp [byteAt, hversion, bind, Except.bind, pure, Except.pure]

end Positions

def canonicalFlags (payload : Bytes) : Bool :=
  match payload with
  | _ :: _ :: flag :: hasOrderId :: rest =>
    match readBody rest with
    | some (body, _) =>
      decide ((flag = 0 ∨ flag = 1) ∧ (hasOrderId = 0 ∨ hasOrderId = 1) ∧ (hasOrderId = 0 → body.orderId = []))
    | none => false
  | _ => false

theorem flagByte_decide {flag : Byte} (h : flag = 0 ∨ flag = 1) : flagByte (decide (flag ≠ 0)) = flag := by
  rcases h with rfl | rfl <;> rfl

variable {order : TrackedOrder}

theorem Denotes.payload_eq {stateRaw flag hasOrderId : Byte} {body : RecordBody}
    (h : Denotes stateRaw flag hasOrderId body order) (hflag : flag = 0 ∨ flag = 1)
    (hhas : hasOrderId = 0 ∨ hasOrderId = 1) (hempty : hasOrderId = 0 → body.orderId = []) :
    payload order = recordVersion :: stateRaw :: flag :: hasOrderId :: body.bytes := by
  have hid : order.orderId.getD [] = body.orderId := by
    rw [h.orderId]
    split_ifs with h0
    · rw [Option.getD_some]
    · rw [hempty (not_not.mp h0), Option.getD_none]
  have hsome : order.orderId.isSome = decide (hasOrderId ≠ 0) := by
    rw [h.orderId]
    split_ifs with h0
    · rw [decide_eq_true h0, Option.isSome_some]
    · rw [decide_eq_false h0, Option.isSome_none]
  rw [payload, fixedPart, stringFields, hid, hsome, flagByte_decide hhas, h.reconciliationRequired, flagByte_decide hflag,
    OrderLifecycleState.raw_of_ofRaw h.state, h.streamGeneration, h.lastEventTimestampMs, h.orderHash, h.amount,
    h.amountFilled, h.reason, RecordBody.bytes, RecordBody.strings]
  simp only [List.cons_append, List.nil_append, List.append_assoc]

theorem payload_of_decode {bytes : Bytes} (h : decode bytes = .ok order)
    (hc : canonicalFlags bytes = true) : payload order = bytes := by
  obtain ⟨stateRaw, flag, hasOrderId, rest, body, rfl, hb, hd⟩ := decode_inversion h
  rw [canonicalFlags, hb] at hc
  obtain ⟨hflag, hhas, hempty⟩ := of_decide_eq_true hc
  rw [hd.payload_eq hflag hhas hempty, (readBody_eq_some hb).1, List.append_nil]

theorem canonicalFlags_payload (h : FieldsFit order) : canonicalFlags (payload order) = true := by
  have hbody := readBody_fields h []
  rw [List.append_nil] at hbody
  have hflag (flag : Bool) : flagByte flag = 0 ∨ flagByte flag = 1 := by
    cases flag
    · exact Or.inl rfl
    · exact Or.inr rfl
  have hempty : flagByte order.orderId.isSome = 0 → order.orderId.getD [] = [] := by
    cases order.orderId with
    | none => exact fun _ => rfl
    | some id => exact fun h => absurd h (show flagByte true ≠ 0 by decide)
  rw [payload, fixedPart]
  simp only [List.cons_append, List.nil_append, List.append_assoc, canonicalFlags, hbody]
  exact decide_eq_true ⟨hflag _, hflag _, hempty⟩

theorem decode_safe_and_canonical (bytes : Bytes) :
    Positions.decode bytes = .ok (decode bytes) ∧
      ∀ order, decode bytes = .ok order →
        (∃ stateRaw flag hasOrderId body, bytes = recordVersion :: stateRaw :: flag :: hasOrderId :: body.bytes ∧
          (∀ field ∈ body.strings, field.length < 2 ^ 32) ∧ Denotes stateRaw flag hasOrderId body order) ∧
        (canonicalFlags bytes = true →
          (∀ maximum, bytes.length ≤ maximum → encode order maximum = .ok bytes) ∧
          ∀ other, canonicalFlags other = true → decode other = .ok order → other = bytes) := by
  refine ⟨Positions.decode_eq bytes, fun order h => ⟨?_, fun hc => ⟨?_, ?_⟩⟩⟩
  · obtain ⟨stateRaw, flag, hasOrderId, rest, body, rfl, hb, hd⟩ := decode_inversion h
    obtain ⟨rfl, hfits⟩ := readBody_eq_some hb
    rw [List.append_nil]
    exact ⟨stateRaw, flag, hasOrderId, body, rfl, hfits, hd⟩
  · intro maximum hm
    have hp := payload_of_decode h hc
    rw [encode_ok_iff, hp]
    exact ⟨(decode_fits h).1, hm, rfl⟩
  · intro other hother hdecode
    rw [← payload_of_decode hdecode hother, payload_of_decode h hc]

theorem submitted_payload_canonical :
    encode (submitted sampleHash tenShares) 200 = .ok (payload (submitted sampleHash tenShares)) ∧
      ∀ other, canonicalFlags other = true → decode other = .ok (submitted sampleHash tenShares) →
        other = payload (submitted sampleHash tenShares) := by
  have hfits : FieldsFit (submitted sampleHash tenShares) := by decide
  have h := ((decode_safe_and_canonical _).2 _ (decode_payload hfits)).2 (canonicalFlags_payload hfits)
  exact ⟨h.1 200 (by decide), h.2⟩

-- a flag byte other than 0 and 1 is read like a 1
example : decode ((payload (submitted [] tenShares)).set 2 2) = decode ((payload (submitted [] tenShares)).set 2 1) := by
  decide

end PredictFun.Lifecycle
