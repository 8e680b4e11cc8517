import PredictFun.Chain.Approvals
import PredictFun.Chain.Calldata
import PredictFun.Chain.Encoding

namespace PredictFun.Chain

open Base BigEndian ContractAbi

structure Carries (payload : Bytes) (transaction : UnsignedTransaction) (data : Bytes) : Prop where
  recipient : payload.take 20 = transaction.toAddress.bytes
  amount : (payload.drop 20).take 32 = fixed 32 transaction.value.toNat
  rest : payload.drop 52 = data

theorem carries_packed (transaction : UnsignedTransaction) (data : Bytes) :
    Carries (transaction.toAddress.bytes ++ (wordOf transaction.value.toNat).bytes ++ data) transaction data := by
  have hto := transaction.toAddress.size
  have hvalue := (wordOf transaction.value.toNat).size
  constructor
  · rw [List.append_assoc, List.take_left' hto]
  · rw [List.append_assoc, List.drop_left' hto, List.take_left' hvalue]
    rfl
  · apply List.drop_left'
    rw [List.length_append, hto, hvalue]

theorem Carries.injective {payload : Bytes} {left right : UnsignedTransaction} {leftData rightData : Bytes}
    (hl : Carries payload left leftData) (hr : Carries payload right rightData) :
    left.toAddress = right.toAddress ∧ left.value = right.value ∧ leftData = rightData := by
  refine ⟨?_, ?_, hl.rest.symm.trans hr.rest⟩
  · have hbytes := hl.recipient.symm.trans hr.recipient
    cases hleft : left.toAddress
    cases hright : right.toAddress
    rw [hleft, hright] at hbytes
    cases hbytes
    rfl
  · apply Uint256.toNat_injective
    have hword : ofBytes (fixed 32 left.value.toNat) = ofBytes (fixed 32 right.value.toNat) := by
      rw [← hl.amount, hr.amount]
    rw [ofBytes_fixed, ofBytes_fixed] at hword
    have hfits (value : Uint256) : value.toNat % 256 ^ 32 = value.toNat := by
      apply Nat.mod_eq_of_lt
      calc value.toNat < 2 ^ 256 := value.toNat_lt
        _ = 256 ^ 32 := by norm_num
    rwa [hfits, hfits] at hword

theorem ReadsAs.unique {α : Type} {fields : Fields α} {hash : Hash32} {outcome : Result Bytes} {first second : α}
    (h : ReadsAs fields hash outcome first) (h' : ReadsAs fields hash outcome second) : first = second := by
  obtain ⟨calldata, body, ho, hd, ha⟩ := h
  obtain ⟨calldata', body', ho', hd', ha'⟩ := h'
  rw [ho] at ho'
  cases ho'
  rw [hd] at hd'
  have hbody : body = body' := List.append_cancel_left (Except.ok.inj hd')
  rw [hbody, ha'] at ha
  exact (Option.some.inj ha).symm

section

variable {keccak : Bytes → Result Hash32} {hash : Hash32} {transaction : UnsignedTransaction} {account : EvmAddress}
  {data : Bytes}

theorem routeTransaction_spec (hk : keccak (ascii "execute(bytes32,bytes)") = .ok hash)
    (hd : decodeHex transaction.data = .ok data) (hs : transaction.data.length < 2 ^ 64) (ha : account.empty = false) :
    ∃ routed payload, routeTransaction keccak transaction ⟨.predictAccount, some account⟩ = .ok routed ∧
      routed.toAddress = account ∧ routed.value = Uint256.zero ∧
      ReadsAs (bytesFields 1) hash (.ok routed.data) ([List.replicate 32 0], payload) ∧ Carries payload transaction data := by
  have hlength := length_data_lt hd hs
  have hsize : (transaction.toAddress.bytes ++ (wordOf transaction.value.toNat).bytes ++ data).length = 52 + data.length := by
    rw [List.length_append, List.length_append, transaction.toAddress.size, (wordOf transaction.value.toNat).size]
  have hread := bytes_call_read_back hk [wordOf 0] (transaction.toAddress.bytes ++ (wordOf transaction.value.toNat).bytes ++ data)
    (by rw [hsize, List.length_singleton]; omega)
  obtain ⟨calldata, body, hcall, hhex, hargs⟩ := hread
  refine ⟨⟨account, calldata, Uint256.zero⟩, _, ?_, rfl, rfl, ⟨calldata, body, rfl, hhex, hargs⟩, carries_packed transaction data⟩
  simp only [routeTransaction, ha, Bool.false_eq_true, if_false, hd, word_ok, hcall, bind, Except.bind]
  rfl

theorem routing_carries (hk : keccak (ascii "execute(bytes32,bytes)") = .ok hash) :
    (∀ transaction data account, decodeHex transaction.data = .ok data → transaction.data.length < 2 ^ 64 →
      account.empty = false →
      ∃ routed payload, routeTransaction keccak transaction ⟨.predictAccount, some account⟩ = .ok routed ∧
        routed.toAddress = account ∧ routed.value = Uint256.zero ∧
        ReadsAs (bytesFields 1) hash (.ok routed.data) ([List.replicate 32 0], payload) ∧
        payload.take 20 = transaction.toAddress.bytes ∧ (payload.drop 20).take 32 = fixed 32 transaction.value.toNat ∧
        payload.drop 52 = data) ∧
    ∀ left right leftData rightData account other routed, decodeHex left.data = .ok leftData →
      decodeHex right.data = .ok rightData → left.data.length < 2 ^ 64 → right.data.length < 2 ^ 64 →
      account.empty = false → other.empty = false →
      routeTransaction keccak left ⟨.predictAccount, some account⟩ = .ok routed →
      routeTransaction keccak right ⟨.predictAccount, some other⟩ = .ok routed →
      account = other ∧ left.toAddress = right.toAddress ∧ left.value = right.value ∧ leftData = rightData := by
  constructor
  · intro transaction data account hd hs ha
    obtain ⟨routed, payload, hroute, hto, hvalue, hread, hcarries⟩ := routeTransaction_spec hk hd hs ha
    exact ⟨routed, payload, hroute, hto, hvalue, hread, hcarries.recipient, hcarries.amount, hcarries.rest⟩
  · intro left right leftData rightData account other routed hl hr hls hrs ha ho hleft hright
    obtain ⟨routed', payload, hroute, hto, -, hread, hcarries⟩ := routeTransaction_spec hk hl hls ha
    obtain ⟨routed'', payload', hroute', hto', -, hread', hcarries'⟩ := routeTransaction_spec hk hr hrs ho
    rw [hroute] at hleft
    rw [hroute'] at hright
    cases hleft
    cases hright
    have hpayload : payload = payload' := congrArg Prod.snd (hread.unique hread')
    subst hpayload
    exact ⟨hto.symm.trans hto', hcarries.injective hcarries'⟩

end

def flatHash (_ : Bytes) : Result Hash32 := .ok zeroWord

theorem flatHash_execute : flatHash (ascii "execute(bytes32,bytes)") = .ok zeroWord := rfl

def sampleAccount : EvmAddress := .filled 0x33

def innerTransfer (data : Bytes) : UnsignedTransaction := ⟨.filled 0x22, data, Uint256.zero⟩

theorem routing_carries_sample : ∃ routed payload,
    routeTransaction flatHash (innerTransfer (ascii "0xab")) ⟨.predictAccount, some sampleAccount⟩ = .ok routed ∧
      ReadsAs (bytesFields 1) zeroWord (.ok routed.data) ([List.replicate 32 0], payload) ∧ payload.drop 52 = [0xab] := by
  obtain ⟨routed, payload, hroute, -, -, hread, -, -, hdata⟩ := (routing_carries flatHash_execute).1 (innerTransfer (ascii "0xab")) [0xab]
    sampleAccount (by decide) (by decide) (by decide)
  exact ⟨routed, payload, hroute, hread, hdata⟩

theorem routing_forgets_case : innerTransfer (ascii "0xAB") ≠ innerTransfer (ascii "0xab") ∧ ∃ routed,
    routeTransaction flatHash (innerTransfer (ascii "0xAB")) ⟨.predictAccount, some sampleAccount⟩ = .ok routed ∧
    routeTransaction flatHash (innerTransfer (ascii "0xab")) ⟨.predictAccount, some sampleAccount⟩ = .ok routed := by
  have hupper : decodeHex (innerTransfer (ascii "0xAB")).data = .ok [0xab] := by decide
  have hlower : decodeHex (innerTransfer (ascii "0xab")).data = .ok [0xab] := by decide
  obtain ⟨routed, -, hroute, -⟩ := routeTransaction_spec flatHash_execute hupper (by decide) (show sampleAccount.empty = false by decide)
  refine ⟨by decide, routed, hroute, ?_⟩
  simp only [routeTransaction, hupper] at hroute
  simp only [routeTransaction, hlower]
  exact hroute

end PredictFun.Chain
