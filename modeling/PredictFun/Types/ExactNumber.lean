import PredictFun.Types.Error

namespace PredictFun

namespace ExactDecimal

/-- The loop over the characters after the sign: a dot was seen, and how many digits. -/
def scan : Bytes → Bool → ℕ → Option ℕ
  | [], _, digitCount => some digitCount
  | c :: rest, dot, digitCount =>
    if isDigit c then scan rest dot (digitCount + 1)
    else if c = byte '.' ∧ dot = false then scan rest true digitCount
    else none

def unsigned (text : Bytes) : Bytes := if text.head? = some (byte '-') then text.tail else text

def parseError (text : Bytes) : Option Error :=
  if text = [] then some ⟨.invalidDecimal, ascii "decimal is empty", [], 0, 0⟩
  else if unsigned text = [] then some ⟨.invalidDecimal, ascii "decimal has no digits", [], 0, 0⟩
  else
    match scan (unsigned text) false 0 with
    | none => some ⟨.invalidDecimal, ascii "decimal must use plain base-10 notation", [], 0, 0⟩
    | some digitCount =>
      if digitCount = 0 ∨ text.getLast? = some (byte '.') then
        some ⟨.invalidDecimal, ascii "decimal is incomplete", [], 0, 0⟩
      else none

end ExactDecimal

structure ExactDecimal where
  text : Bytes
  valid : ExactDecimal.parseError text = none
  deriving DecidableEq

namespace ExactDecimal

def parse (text : Bytes) : Result ExactDecimal :=
  match h : parseError text with
  | some error => .error error
  | none => .ok ⟨text, h⟩

theorem parse_text (d : ExactDecimal) : parse d.text = .ok d := by
  unfold parse
  split
  · next h => rw [d.valid] at h; cases h
  · rfl

theorem parse_ok {text : Bytes} {d : ExactDecimal} (h : parse text = .ok d) : d.text = text := by
  unfold parse at h
  split at h
  · cases h
  · cases h
    rfl

def zero : ExactDecimal := ⟨ascii "0", by decide⟩

end ExactDecimal

namespace Uint256

def uint256Max : Bytes := ascii "115792089237316195423570985008687907853269984665640564039457584007913129639935"

def digits (text : Bytes) : Bool := !text.isEmpty && text.all isDigit

def canonical (text : Bytes) : Bytes :=
  if text.dropWhile (fun c => c = byte '0') = [] then ascii "0" else text.dropWhile (fun c => c = byte '0')

def exceeds (text : Bytes) : Bool :=
  decide (text.length > uint256Max.length ∨ (text.length = uint256Max.length ∧ uint256Max < text))

end Uint256

structure Uint256 where
  text : Bytes
  isDigits : Uint256.digits text = true
  isCanonical : Uint256.canonical text = text
  fits : Uint256.exceeds text = false
  deriving DecidableEq

namespace Uint256

theorem text_injective : Function.Injective Uint256.text := by
  intro ⟨a, _, _, _⟩ ⟨b, _, _, _⟩ h
  cases h
  rfl

theorem canonical_digits {text : Bytes} (h : digits text = true) : digits (canonical text) = true := by
  simp only [digits, Bool.and_eq_true, List.all_eq_true] at h
  unfold canonical
  split_ifs with hz
  · decide
  · simp only [digits, Bool.and_eq_true, List.all_eq_true]
    refine ⟨by simpa using hz, fun c hc => h.2 c ?_⟩
    exact (List.dropWhile_suffix _).subset hc

theorem canonical_canonical (text : Bytes) : canonical (canonical text) = canonical text := by
  by_cases hz : text.dropWhile (fun c => c = byte '0') = []
  · have hc : canonical text = ascii "0" := if_pos hz
    rw [hc]
    decide
  · have hc : canonical text = text.dropWhile (fun c => c = byte '0') := if_neg hz
    rw [hc, canonical, List.dropWhile_idempotent, if_neg hz]

def parse (text : Bytes) : Result Uint256 :=
  if hd : digits text = true then
    if hf : exceeds (canonical text) = false then
      .ok ⟨canonical text, canonical_digits hd, canonical_canonical text, hf⟩
    else fail .numericOverflow "value exceeds uint256" ""
  else fail .invalidField "uint256 must contain base-10 digits" ""

def isZero (value : Uint256) : Bool := value.text = ascii "0"

def zero : Uint256 := ⟨ascii "0", by decide, by decide, by decide⟩

def one : Uint256 := ⟨ascii "1", by decide, by decide, by decide⟩

end Uint256

end PredictFun
