import PredictFun.Types.Orders

namespace PredictFun

def hexValue (c : Byte) : Option ℕ :=
  if 0x30 ≤ c.toNat ∧ c.toNat ≤ 0x39 then some (c.toNat - 0x30)
  else if 0x61 ≤ c.toNat ∧ c.toNat ≤ 0x66 then some (c.toNat - 0x61 + 10)
  else if 0x41 ≤ c.toNat ∧ c.toNat ≤ 0x46 then some (c.toNat - 0x41 + 10)
  else none

def hexBytes : Bytes → Option Bytes
  | high :: low :: rest => do
    let h ← hexValue high
    let l ← hexValue low
    let bytes ← hexBytes rest
    pure (BitVec.ofNat 8 (h <<< 4 ||| l) :: bytes)
  | _ => some []

theorem hexBytes_length (n : ℕ) {text bytes : Bytes} (hl : text.length = 2 * n) (h : hexBytes text = some bytes) :
    bytes.length = n := by
  induction n generalizing text bytes with
  | zero =>
    rw [List.length_eq_zero_iff.mp hl] at h
    cases h
    rfl
  | succ n ih =>
    match text, hl with
    | high :: low :: rest, hl =>
      simp only [hexBytes, Option.bind_eq_bind, Option.bind_eq_some_iff, Option.pure_def, Option.some.injEq] at h
      obtain ⟨-, -, -, -, more, hm, rfl⟩ := h
      rw [List.length_cons, ih (by simp at hl; omega) hm]

def EvmAddress.parse (text : Bytes) : Result EvmAddress :=
  if ht : text.length ≠ 42 ∨ text.take 2 ≠ ascii "0x" then
    fail .invalidArgument "EVM address must be 0x followed by 40 hexadecimal digits" "address"
  else
    match hb : hexBytes (text.drop 2) with
    | none => fail .invalidArgument "EVM address contains a non-hexadecimal digit" "address"
    | some bytes =>
      if bytes.all (fun value => value = 0) then
        fail .invalidArgument "zero EVM address is not a valid identity" "address"
      else .ok ⟨bytes, hexBytes_length 20 (by simp at ht; simp [ht.1]) hb⟩

def hexDigit (n : ℕ) : Byte := if n < 10 then BitVec.ofNat 8 (0x30 + n) else BitVec.ofNat 8 (0x57 + n)

def hexText (bytes : Bytes) : Bytes := bytes.flatMap (fun b => [hexDigit (b.toNat / 16), hexDigit (b.toNat % 16)])

theorem hexValue_hexDigit {n : ℕ} (h : n < 16) : hexValue (hexDigit n) = some n := by
  interval_cases n <;> decide

theorem hexBytes_hexText (bytes : Bytes) : hexBytes (hexText bytes) = some bytes := by
  induction bytes with
  | nil => rfl
  | cons b bytes ih =>
    have hb := b.isLt
    have hcons : hexText (b :: bytes) = hexDigit (b.toNat / 16) :: hexDigit (b.toNat % 16) :: hexText bytes := rfl
    have hbyte : BitVec.ofNat 8 ((b.toNat / 16) <<< 4 ||| b.toNat % 16) = b := by
      apply BitVec.eq_of_toNat_eq
      rw [BitVec.toNat_ofNat, Nat.shiftLeft_eq, Nat.mul_comm, ← Nat.two_pow_add_eq_or_of_lt (by omega)]
      omega
    rw [hcons, hexBytes, hexValue_hexDigit (by omega), hexValue_hexDigit (by omega), ih]
    simp only [Option.bind_eq_bind, Option.bind_some, Option.pure_def, hbyte]

theorem length_hexText (bytes : Bytes) : (hexText bytes).length = 2 * bytes.length := by
  induction bytes with
  | nil => rfl
  | cons b bytes ih =>
    have hcons : hexText (b :: bytes) = hexDigit (b.toNat / 16) :: hexDigit (b.toNat % 16) :: hexText bytes := rfl
    rw [hcons, List.length_cons, List.length_cons, ih, List.length_cons]
    omega

def EvmAddress.text (address : EvmAddress) : Bytes := ascii "0x" ++ hexText address.bytes

theorem EvmAddress.text_injective : Function.Injective EvmAddress.text := by
  intro ⟨a, ha⟩ ⟨b, hb⟩ h
  have hhex : hexBytes (hexText a) = hexBytes (hexText b) := congrArg hexBytes (List.append_cancel_left h)
  simp only [hexBytes_hexText, Option.some.injEq] at hhex
  cases hhex
  rfl

end PredictFun
