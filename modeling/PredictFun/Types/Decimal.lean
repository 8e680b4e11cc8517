import PredictFun.Lifecycle.Decimal

namespace PredictFun

open Base

/-- Every pair of an unsigned 64-bit and an unsigned 8-bit number is a value. -/
structure FixedDecimal where
  units : BitVec 64
  scale : BitVec 8
  deriving DecidableEq

/-- The table has the powers up to the eighteenth. -/
def powersOfTen (exponent : ℕ) : BitVec 64 := BitVec.ofNat 64 (10 ^ exponent)

def checkedMultiply (value factor : BitVec 64) : Result (BitVec 64) :=
  if factor ≠ 0 ∧ value > BitVec.allOnes 64 / factor then fail .numericOverflow "decimal exceeds uint64 capacity" ""
  else .ok (value * factor)

namespace FixedDecimal

def maxScale : ℕ := 18

def isExponentMark (c : Byte) : Bool := c = byte 'e' ∨ c = byte 'E'

/-- `std::from_chars` for an `int`, on the whole text. -/
def exponentValue (text : Bytes) : Option ℤ :=
  let digits := if text.head? = some (byte '-') then text.tail else text
  if digits = [] ∨ digits.all isDigit = false then none
  else
    let magnitude : ℤ := Positional.value digitValue 10 digits
    let value := if text.head? = some (byte '-') then -magnitude else magnitude
    if -2 ^ 31 ≤ value ∧ value < 2 ^ 31 then some value else none

def exponent (text : Bytes) : Result ℤ :=
  match text.dropWhile (fun c => !isExponentMark c) with
  | [] => .ok 0
  | _ :: exponentText =>
    if exponentText = [] then fail .invalidDecimal "decimal exponent is empty" ""
    else
      match exponentValue exponentText with
      | none => fail .invalidDecimal "decimal exponent is invalid" ""
      | some value => .ok value

def reduce : ℕ → ℕ → ℕ × ℕ
  | 0, units => (units, 0)
  | scale + 1, units => if units % 10 = 0 then reduce scale (units / 10) else (units, scale + 1)

def scaled (digits : Bytes) (fractionalDigits : ℕ) (exponent : ℤ) : Result FixedDecimal :=
  let units := Positional.value digitValue 10 digits
  if 2 ^ 64 ≤ units then fail .numericOverflow "decimal significand exceeds uint64 capacity" ""
  else
    let signedScale : ℤ := fractionalDigits - exponent
    if signedScale < 0 then
      let zeros := (-signedScale).toNat
      if zeros > maxScale then fail .numericOverflow "decimal exponent exceeds supported capacity" ""
      else (checkedMultiply (BitVec.ofNat 64 units) (powersOfTen zeros)).map (fun grown => ⟨grown, 0⟩)
    else if signedScale > maxScale then fail .unsupportedPrecision "decimal scale exceeds 18 digits" ""
    else
      let (units, scale) := reduce signedScale.toNat units
      .ok ⟨BitVec.ofNat 64 units, BitVec.ofNat 8 scale⟩

def parse (text : Bytes) : Result FixedDecimal :=
  if text = [] ∨ text.head? = some (byte '-') ∨ text.head? = some (byte '+') then
    fail .invalidDecimal "expected an unsigned decimal" ""
  else
    let significand := text.takeWhile (fun c => !isExponentMark c)
    if significand.count (byte '.') > 1 then fail .invalidDecimal "decimal has more than one point" ""
    else
      let digits := significand.filter (fun c => c ≠ byte '.')
      if digits.all isDigit = false then fail .invalidDecimal "decimal contains an invalid character" ""
      else if digits = [] then fail .invalidDecimal "decimal has no digits" ""
      else do
        let exponent ← exponent text
        scaled digits (significand.dropWhile (fun c => c ≠ byte '.')).tail.length exponent

def rescaleExact (value : FixedDecimal) (targetScale : BitVec 8) : Result FixedDecimal :=
  if targetScale.toNat > maxScale then fail .unsupportedPrecision "target scale exceeds 18 digits" ""
  else if targetScale = value.scale then .ok value
  else if targetScale > value.scale then
    (checkedMultiply value.units (powersOfTen (targetScale.toNat - value.scale.toNat))).map
      (fun grown => ⟨grown, targetScale⟩)
  else
    let divisor := powersOfTen (value.scale.toNat - targetScale.toNat)
    if value.units % divisor ≠ 0 then fail .invalidDecimal "decimal is not aligned to the requested scale" ""
    else .ok ⟨value.units / divisor, targetScale⟩

theorem reduce_le (scale units : ℕ) : (reduce scale units).2 ≤ scale := by
  induction scale generalizing units with
  | zero => exact le_refl 0
  | succ scale ih =>
    rw [reduce]
    split_ifs
    · exact (ih _).trans (Nat.le_succ scale)
    · exact le_refl _

theorem scaled_scale_le {digits : Bytes} {fractionalDigits : ℕ} {exponent : ℤ} {decimal : FixedDecimal}
    (h : scaled digits fractionalDigits exponent = .ok decimal) : decimal.scale.toNat ≤ maxScale := by
  unfold scaled at h
  dsimp only at h
  split_ifs at h with hbig hneg hzeros hscale
  · cases h
  · cases h
  · cases hm : checkedMultiply (BitVec.ofNat 64 (Positional.value digitValue 10 digits))
        (powersOfTen (-(fractionalDigits - exponent)).toNat) with
    | error error =>
      rw [hm] at h
      cases h
    | ok grown =>
      rw [hm] at h
      cases h
      exact Nat.zero_le _
  · cases h
  · cases h
    rw [BitVec.toNat_ofNat]
    refine (Nat.mod_le _ _).trans ((reduce_le _ _).trans ?_)
    omega

theorem parse_scale_le {text : Bytes} {decimal : FixedDecimal} (h : parse text = .ok decimal) :
    decimal.scale.toNat ≤ maxScale := by
  unfold parse at h
  dsimp only at h
  split_ifs at h
  · cases h
  · cases h
  · cases h
  · cases h
  · obtain ⟨exponent, -, hscaled⟩ := Result.bind_eq_ok.mp h
    exact scaled_scale_le hscaled

def value (decimal : FixedDecimal) : ℚ := decimal.units.toNat / 10 ^ decimal.scale.toNat

end FixedDecimal

structure Price where
  ticks : BitVec 64
  precision : BitVec 8
  tickScale : BitVec 64
  precision_le : precision.toNat ≤ FixedDecimal.maxScale
  tickScale_eq : tickScale = powersOfTen precision.toNat
  ticks_le : ticks ≤ tickScale
  deriving DecidableEq

namespace Price

def fromTicks (ticks : BitVec 64) (decimalPrecision : BitVec 8) : Result Price :=
  if hp : decimalPrecision.toNat ≤ FixedDecimal.maxScale then
    if ht : ticks ≤ powersOfTen decimalPrecision.toNat then
      .ok ⟨ticks, decimalPrecision, powersOfTen decimalPrecision.toNat, hp, rfl, ht⟩
    else fail .invalidPrice "price must be between zero and one" "price"
  else fail .unsupportedPrecision "price precision exceeds 18 digits" "decimalPrecision"

def parse (text : Bytes) (decimalPrecision : BitVec 8) : Result Price :=
  match FixedDecimal.parse text with
  | .error error => .error { error with code := .invalidPrice }
  | .ok decimal =>
    match decimal.rescaleExact decimalPrecision with
    | .error error => .error { error with code := .invalidPrice }
    | .ok aligned => fromTicks aligned.units decimalPrecision

def complement (price : Price) : Price :=
  { price with
    ticks := price.tickScale - price.ticks
    ticks_le := by
      have h := price.ticks_le
      bv_omega }

def cents (ticks : BitVec 64) (h : ticks ≤ powersOfTen 2) : Price := ⟨ticks, 2, powersOfTen 2, by decide, rfl, h⟩

theorem eq_of_ticks {left right : Price} (hp : left.precision = right.precision) (ht : left.ticks = right.ticks) :
    left = right := by
  obtain ⟨ticks, precision, tickScale, hle, rfl, hticks⟩ := left
  obtain ⟨ticks', precision', tickScale', hle', rfl, hticks'⟩ := right
  cases hp
  cases ht
  rfl

theorem complement_complement (price : Price) : price.complement.complement = price := by
  refine eq_of_ticks rfl ?_
  have h := price.ticks_le
  change price.tickScale - (price.tickScale - price.ticks) = price.ticks
  bv_omega

theorem fromTicks_precision {ticks : BitVec 64} {decimalPrecision : BitVec 8} {price : Price}
    (h : fromTicks ticks decimalPrecision = .ok price) : price.precision = decimalPrecision := by
  unfold fromTicks at h
  split_ifs at h
  · cases h
    rfl
  · cases h
  · cases h

theorem parse_precision {text : Bytes} {decimalPrecision : BitVec 8} {price : Price}
    (h : parse text decimalPrecision = .ok price) : price.precision = decimalPrecision := by
  unfold parse at h
  split at h
  · cases h
  · split at h
    · cases h
    · exact fromTicks_precision h

end Price

end PredictFun
