import Mathlib

namespace PredictFun

abbrev Byte := BitVec 8

/-- A `std::string`: any sequence of bytes. -/
abbrev Bytes := List Byte

instance : LawfulBEq Byte := inferInstance

instance : LawfulBEq Bytes := inferInstance

def byte (c : Char) : Byte := BitVec.ofNat 8 c.toNat

def ascii (s : String) : Bytes := s.toList.map byte

/-- `std::isdigit` in the C locale. -/
def isDigit (c : Byte) : Bool := decide (0x30 ≤ c.toNat ∧ c.toNat ≤ 0x39)

/-- `std::isxdigit` in the C locale. -/
def isHexDigit (c : Byte) : Bool :=
  isDigit c || decide (0x41 ≤ c.toNat ∧ c.toNat ≤ 0x46) || decide (0x61 ≤ c.toNat ∧ c.toNat ≤ 0x66)

inductive ErrorCode
  | invalidArgument
  | cancelled
  | deadlineExceeded
  | dnsFailure
  | connectFailure
  | tlsFailure
  | writeFailure
  | readFailure
  | websocketHandshakeFailure
  | websocketClosed
  | websocketFrameTooLarge
  | websocketQueueOverflow
  | subscriptionRejected
  | heartbeatTimeout
  | timestampRegression
  | bodyTruncated
  | bodyTooLarge
  | rateLimited
  | authenticationRequired
  | httpRedirect
  | httpClientError
  | httpServerError
  | protocolError
  | malformedJson
  | missingField
  | invalidField
  | unsupportedPrecision
  | numericOverflow
  | invalidDecimal
  | invalidPrice
  | invalidQuantity
  | tooManyItems
  | invalidOrderbook
  | venueRejected
  | ambiguousSubmission
  | remoteError
  | unsupportedChain
  | executionReverted
  | storageFailure
  | journalCorrupt
  deriving DecidableEq

structure Error where
  code : ErrorCode
  message : Bytes
  field : Bytes
  httpStatus : ℤ := 0
  retryAfterMs : ℕ := 0
  deriving DecidableEq

abbrev Result (α : Type) := Except Error α

def fail {α : Type} (code : ErrorCode) (message : String) (field : String) : Result α :=
  .error ⟨code, ascii message, ascii field, 0, 0⟩

theorem Result.bind_eq_ok {α β : Type} {first : Result α} {next : α → Result β} {value : β} :
    (first >>= next) = .ok value ↔ ∃ a, first = .ok a ∧ next a = .ok value := by
  cases first with
  | error error =>
    constructor
    · rintro ⟨⟩
    · rintro ⟨_, ⟨⟩, _⟩
  | ok a =>
    constructor
    · intro h
      exact ⟨a, rfl, h⟩
    · rintro ⟨_, ⟨⟩, h⟩
      exact h

theorem Result.ite_fail_eq_ok {α : Type} {P : Prop} [Decidable P] {code : ErrorCode} {message field : String}
    {rest : Result α} {value : α} : (if P then fail code message field else rest) = .ok value ↔ ¬P ∧ rest = .ok value := by
  by_cases hP : P
  · rw [if_pos hP]
    constructor
    · rintro ⟨⟩
    · rintro ⟨hn, _⟩
      exact absurd hP hn
  · rw [if_neg hP]
    exact (and_iff_right hP).symm

theorem Result.bind_eq_error {α β : Type} {first : Result α} {next : α → Result β} {error : Error} :
    (first >>= next) = .error error ↔ first = .error error ∨ ∃ a, first = .ok a ∧ next a = .error error := by
  cases first with
  | error other =>
    constructor
    · intro h
      cases h
      exact .inl rfl
    · rintro (h | ⟨_, ⟨⟩, _⟩)
      cases h
      rfl
  | ok a =>
    constructor
    · intro h
      exact .inr ⟨a, rfl, h⟩
    · rintro (⟨⟨⟩⟩ | ⟨_, ⟨⟩, h⟩)
      exact h

theorem Result.ok_of_map {α β : Type} {result : Result α} {f : α → β} {value : β} (h : result.map f = .ok value) :
    ∃ a, result = .ok a ∧ f a = value := by
  cases result with
  | error error => cases h
  | ok a => exact ⟨a, rfl, Except.ok.inj h⟩

instance {α : Type} [DecidableEq α] : DecidableEq (Result α)
  | .ok a, .ok b => if h : a = b then isTrue (h ▸ rfl) else isFalse (fun e => h (Except.ok.inj e))
  | .error a, .error b => if h : a = b then isTrue (h ▸ rfl) else isFalse (fun e => h (Except.error.inj e))
  | .ok _, .error _ => isFalse (fun e => nomatch e)
  | .error _, .ok _ => isFalse (fun e => nomatch e)

end PredictFun
