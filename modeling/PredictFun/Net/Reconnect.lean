import Mathlib

namespace PredictFun.Net

/-- Durations are in milliseconds. -/
structure ReconnectPolicy where
  initial : ℤ := 250
  maximum : ℤ := 10000
  jitterPercent : ℕ := 20
  stormAttempts : ℕ := 8
  stormWindow : ℤ := 30000
  stormCooldown : ℤ := 60000
  -- zero stands for a seed of the process
  jitterSeed : BitVec 64 := 0
  deriving DecidableEq

structure ReconnectDecision where
  delay : ℤ
  stormCooldown : Bool
  deriving DecidableEq

/-- Points in time are nanoseconds of the steady clock. -/
structure ReconnectBackoff where
  policy : ReconnectPolicy
  current : ℤ
  attempts : List ℤ := []
  cooldownUntil : ℤ := 0
  randomState : BitVec 64
  deriving DecidableEq

namespace ReconnectBackoff

def ofPolicy (policy : ReconnectPolicy) (seed : BitVec 64) : ReconnectBackoff :=
  { policy := policy, current := policy.initial, randomState := seed }

def construct (policy : ReconnectPolicy) (uniqueSeed : BitVec 64) : Except String ReconnectBackoff :=
  if policy.initial ≤ 0 ∨ policy.maximum < policy.initial then .error "invalid reconnect delay range"
  else if policy.maximum > (2 ^ 63 - 1) / 3 then .error "reconnect maximum is too large"
  else if policy.jitterPercent > 100 then .error "reconnect jitter must not exceed 100 percent"
  else if policy.stormAttempts = 0 ∨ policy.stormWindow ≤ 0 ∨ policy.stormCooldown ≤ 0 then
    .error "invalid reconnect storm policy"
  else .ok (ofPolicy policy (if policy.jitterSeed = 0 then uniqueSeed else policy.jitterSeed))

/-- The clock counts in signed 64-bit integers; an overflow is taken to wrap. -/
def int64 (n : ℤ) : ℤ := n.bmod (2 ^ 64)

def nanoseconds (milliseconds : ℤ) : ℤ := int64 (milliseconds * 1000000)

def nextRandom (state : BitVec 64) : BitVec 64 :=
  let state := state ^^^ (state <<< 13)
  let state := state ^^^ (state >>> 7)
  state ^^^ (state <<< 17)

def jitter (backoff : ReconnectBackoff) (base : ℤ) : ℤ × ReconnectBackoff :=
  if backoff.policy.jitterPercent = 0 then (base, backoff)
  else
    let random := nextRandom backoff.randomState
    let percent : ℤ := backoff.policy.jitterPercent
    let span := base.tdiv 100 * percent + (base.tmod 100 * percent).tdiv 100
    let width := BitVec.ofInt 64 span * 2 + 1
    let sample := (random % width).toInt
    let candidate := base + sample - span
    (if candidate < 1 then 1 else if backoff.policy.maximum < candidate then backoff.policy.maximum else candidate,
      { backoff with randomState := random })

def next (backoff : ReconnectBackoff) (now : ℤ) : ReconnectDecision × ReconnectBackoff :=
  if now < backoff.cooldownUntil then
    -- rounded up to whole milliseconds
    (⟨(int64 (backoff.cooldownUntil - now) + 999999) / 1000000, true⟩, backoff)
  else
    let recent := backoff.attempts.dropWhile
      (fun attempt => decide (nanoseconds backoff.policy.stormWindow < int64 (now - attempt))) ++ [now]
    if backoff.policy.stormAttempts < recent.length then
      (⟨backoff.policy.stormCooldown, true⟩,
        { backoff with attempts := [], cooldownUntil := int64 (now + nanoseconds backoff.policy.stormCooldown) })
    else
      let (delay, jittered) := jitter { backoff with attempts := recent } backoff.current
      let doubled :=
        if backoff.policy.maximum.tdiv 2 ≤ backoff.current then backoff.policy.maximum
        else min (backoff.current * 2) backoff.policy.maximum
      (⟨delay, false⟩, { jittered with current := doubled })

def markStable (backoff : ReconnectBackoff) : ReconnectBackoff :=
  { backoff with current := backoff.policy.initial, attempts := [], cooldownUntil := 0 }

end ReconnectBackoff

end PredictFun.Net
