import PredictFun.Base.KeyedMap
import PredictFun.Base.Runs
import PredictFun.Base.TokenBucket
import PredictFun.Types.Error

namespace PredictFun.Net

open Base

/-- Requests per minute. -/
structure RateLimitPolicy where
  globalRequestsPerMinute : ℕ := 240
  endpointRequestsPerMinute : KeyedMap Bytes ℕ := ∅

/-- Token counts and points in time (seconds of the steady clock) are exact rationals. -/
structure Bucket where
  tokens : ℚ := 0
  capacity : ℚ := 0
  tokensPerSecond : ℚ := 0
  updated : ℚ := 0
  blockedUntil : ℚ := 0
  deriving DecidableEq

/-- `none` stands for the exception that rejects a limit of zero. -/
def makeBucket (requestsPerMinute : ℕ) (now : ℚ) : Option Bucket :=
  if requestsPerMinute = 0 then none
  else some
    { tokens := requestsPerMinute
      capacity := requestsPerMinute
      tokensPerSecond := requestsPerMinute / 60
      updated := now }

namespace Bucket

def waitFor (bucket : Bucket) (now : ℚ) : ℚ × Bucket :=
  let eligibility := max now (max bucket.updated bucket.blockedUntil)
  let bucket :=
    if bucket.updated < eligibility then
      { bucket with
        tokens := min bucket.capacity (bucket.tokens + (eligibility - bucket.updated) * bucket.tokensPerSecond)
        updated := eligibility }
    else bucket
  if 1 ≤ bucket.tokens then (eligibility - now, bucket)
  else (eligibility - now + (1 - bucket.tokens) / bucket.tokensPerSecond, bucket)

def consumeAt (bucket : Bucket) (time : ℚ) : Bucket :=
  let refilled := (bucket.waitFor time).2
  { refilled with tokens := max 0 (refilled.tokens - 1) }

end Bucket

namespace Bucket

variable {limit : ℕ} {bucket : Bucket} {now time : ℚ}

structure Sound (limit : ℕ) (bucket : Bucket) : Prop where
  positive : 1 ≤ limit
  capacity_eq : bucket.capacity = limit
  rate_eq : bucket.tokensPerSecond = limit / 60
  tokens_nonneg : 0 ≤ bucket.tokens
  tokens_le : bucket.tokens ≤ bucket.capacity

def eligible (bucket : Bucket) (now : ℚ) : ℚ := max now (max bucket.updated bucket.blockedUntil)

def tokensAt (bucket : Bucket) (time : ℚ) : ℚ :=
  TokenBucket.filled bucket.capacity bucket.tokensPerSecond bucket.tokens bucket.updated time

def ready (bucket : Bucket) (now : ℚ) : ℚ :=
  if 1 ≤ bucket.tokensAt (bucket.eligible now) then bucket.eligible now
  else bucket.eligible now + (1 - bucket.tokensAt (bucket.eligible now)) / bucket.tokensPerSecond

def refilled (bucket : Bucket) (time : ℚ) : Bucket :=
  { bucket with tokens := bucket.tokensAt time, updated := time }

def spent (bucket : Bucket) (time : ℚ) : Bucket :=
  { bucket with tokens := bucket.tokensAt time - 1, updated := time }

theorem updated_le_eligible : bucket.updated ≤ bucket.eligible now :=
  (le_max_left _ _).trans (le_max_right _ _)

theorem blockedUntil_le_eligible : bucket.blockedUntil ≤ bucket.eligible now :=
  (le_max_right _ _).trans (le_max_right _ _)

theorem Sound.rate_pos (h : Sound limit bucket) : 0 < bucket.tokensPerSecond := by
  have : (1 : ℚ) ≤ limit := by exact_mod_cast h.positive
  rw [h.rate_eq]
  linarith

theorem Sound.one_le_capacity (h : Sound limit bucket) : 1 ≤ bucket.capacity := by
  rw [h.capacity_eq]
  exact_mod_cast h.positive

theorem makeBucket_sound (h : makeBucket limit now = some bucket) : Sound limit bucket := by
  unfold makeBucket at h
  split_ifs at h with hz
  cases h
  exact ⟨Nat.one_le_iff_ne_zero.mpr hz, rfl, rfl, Nat.cast_nonneg _, le_refl _⟩

theorem eligible_le_ready (h : Sound limit bucket) : bucket.eligible now ≤ bucket.ready now := by
  unfold ready
  split_ifs with ht
  · exact le_refl _
  · have := div_nonneg (sub_nonneg.mpr (not_le.mp ht).le) h.rate_pos.le
    linarith

theorem one_le_tokensAt (h : Sound limit bucket) (ht : bucket.ready now ≤ time) : 1 ≤ bucket.tokensAt time := by
  have hmono : bucket.tokensAt (bucket.ready now) ≤ bucket.tokensAt time :=
    TokenBucket.filled_mono h.rate_pos.le ht
  refine le_trans ?_ hmono
  unfold ready
  split_ifs with he
  · exact he
  · -- the missing part of the token is gained at the rate of the bucket
    have hgain : (1 - bucket.tokensAt (bucket.eligible now)) / bucket.tokensPerSecond * bucket.tokensPerSecond
        = 1 - bucket.tokensAt (bucket.eligible now) := div_mul_cancel₀ _ h.rate_pos.ne'
    have hlater : bucket.eligible now ≤ bucket.eligible now
        + (1 - bucket.tokensAt (bucket.eligible now)) / bucket.tokensPerSecond := by
      have : bucket.eligible now ≤ bucket.ready now := eligible_le_ready h
      rwa [ready, if_neg he] at this
    rw [tokensAt, ← TokenBucket.filled_filled h.rate_pos.le hlater]
    refine le_min h.one_le_capacity ?_
    rw [add_sub_cancel_left, hgain]
    change 1 ≤ bucket.tokensAt _ + _
    linarith

theorem Sound.refilled (h : Sound limit bucket) (ht : bucket.updated ≤ time) :
    Sound limit (bucket.refilled time) where
  positive := h.positive
  capacity_eq := h.capacity_eq
  rate_eq := h.rate_eq
  tokens_nonneg :=
    le_min (zero_le_one.trans h.one_le_capacity)
      (add_nonneg h.tokens_nonneg (mul_nonneg (sub_nonneg.mpr ht) h.rate_pos.le))
  tokens_le := TokenBucket.filled_le

theorem Sound.spent (h : Sound limit bucket) (ht : bucket.ready now ≤ time) :
    Sound limit (bucket.spent time) where
  positive := h.positive
  capacity_eq := h.capacity_eq
  rate_eq := h.rate_eq
  tokens_nonneg := sub_nonneg.mpr (one_le_tokensAt h ht)
  tokens_le := (sub_le_self _ zero_le_one).trans TokenBucket.filled_le

theorem Sound.blocked (h : Sound limit bucket) (time : ℚ) :
    Sound limit { bucket with blockedUntil := time } :=
  ⟨h.positive, h.capacity_eq, h.rate_eq, h.tokens_nonneg, h.tokens_le⟩

theorem waitFor_eq (h : Sound limit bucket) :
    bucket.waitFor now = (bucket.ready now - now, bucket.refilled (bucket.eligible now)) := by
  have hrefill : (if bucket.updated < max now (max bucket.updated bucket.blockedUntil) then
      bucket.refilled (bucket.eligible now) else bucket) = bucket.refilled (bucket.eligible now) := by
    split_ifs with hu
    · rfl
    · have he : bucket.eligible now = bucket.updated := le_antisymm (not_lt.mp hu) updated_le_eligible
      rw [he, refilled, tokensAt, TokenBucket.filled_self h.tokens_le]
  have hunfold : bucket.waitFor now
      = if 1 ≤ (bucket.refilled (bucket.eligible now)).tokens then
          (bucket.eligible now - now, bucket.refilled (bucket.eligible now))
        else (bucket.eligible now - now + (1 - (bucket.refilled (bucket.eligible now)).tokens)
          / (bucket.refilled (bucket.eligible now)).tokensPerSecond, bucket.refilled (bucket.eligible now)) := by
    rw [← hrefill]
    rfl
  rw [hunfold]
  unfold ready
  split_ifs with ht he he
  · rfl
  · exact absurd ht he
  · exact absurd he ht
  · rw [add_sub_right_comm]
    rfl

theorem consumeAt_waitFor (h : Sound limit bucket) (ht : bucket.ready now ≤ time) :
    (bucket.waitFor now).2.consumeAt time = bucket.spent time := by
  have helig : bucket.eligible now ≤ time := (eligible_le_ready h).trans ht
  have hsound : Sound limit (bucket.refilled (bucket.eligible now)) := h.refilled updated_le_eligible
  have hat : (bucket.refilled (bucket.eligible now)).eligible time = time := by
    simp only [eligible, refilled]
    exact max_eq_left (max_le helig (blockedUntil_le_eligible.trans helig))
  have htokens : (bucket.refilled (bucket.eligible now)).tokensAt time = bucket.tokensAt time :=
    TokenBucket.filled_filled h.rate_pos.le helig
  have hone : 0 ≤ bucket.tokensAt time - 1 := sub_nonneg.mpr (one_le_tokensAt h ht)
  simp only [waitFor_eq h, consumeAt, waitFor_eq hsound, hat]
  simp only [refilled, spent] at htokens ⊢
  rw [htokens, max_eq_right hone]

end Bucket

structure RateLimiter where
  global : Bucket
  endpoints : KeyedMap Bytes Bucket
  endpointBlockedUntil : KeyedMap Bytes ℚ := ∅

namespace RateLimiter

/-- The clock is read for each bucket on its own: `clock none` for the global one. -/
def ofPolicy (policy : RateLimitPolicy) (clock : Option Bytes → ℚ) : Option RateLimiter := do
  let global ← makeBucket policy.globalRequestsPerMinute (clock none)
  let endpoints ← policy.endpointRequestsPerMinute.entries.foldlM
    (fun (endpoints : KeyedMap Bytes Bucket) entry => do
      let bucket ← makeBucket entry.2 (clock (some entry.1))
      pure (endpoints.insert entry.1 bucket)) ∅
  pure { global := global, endpoints := endpoints }

def reservation (limiter : RateLimiter) (endpoint : Bytes) (now : ℚ) : ℚ × RateLimiter :=
  let (globalDelay, global) := limiter.global.waitFor now
  let global := global.consumeAt (now + globalDelay)
  let blockedDelay :=
    match limiter.endpointBlockedUntil.lookup endpoint with
    | some time => if now < time then time - now else 0
    | none => 0
  match limiter.endpoints.lookup endpoint with
  | some bucket =>
    let (delay, bucket) := bucket.waitFor now
    let endpointDelay := max blockedDelay delay
    (max globalDelay endpointDelay,
      { limiter with
        global := global
        endpoints := limiter.endpoints.insert endpoint (bucket.consumeAt (now + endpointDelay)) })
  | none => (max globalDelay blockedDelay, { limiter with global := global })

def reserve (limiter : RateLimiter) (endpoint : Bytes) (now : ℚ) : ℤ × RateLimiter :=
  let (delay, limiter) := limiter.reservation endpoint now
  (⌈delay * 1000⌉, limiter)

def seconds (milliseconds : ℤ) : ℚ := milliseconds / 1000

def penaltyEnd (now : ℚ) (retryAfter : ℤ) : ℚ :=
  now + seconds (if retryAfter < 0 then 0 else retryAfter)

def penalize (limiter : RateLimiter) (endpoint : Bytes) (now : ℚ) (retryAfter : ℤ) (global : Bool) :
    RateLimiter :=
  let time := penaltyEnd now retryAfter
  { global :=
      if global then { limiter.global with blockedUntil := max limiter.global.blockedUntil time }
      else limiter.global
    endpointBlockedUntil :=
      limiter.endpointBlockedUntil.insert endpoint
        (max ((limiter.endpointBlockedUntil.lookup endpoint).getD 0) time)
    endpoints :=
      limiter.endpoints.adjust endpoint
        (fun bucket => { bucket with blockedUntil := max bucket.blockedUntil time }) }

def release (limiter : RateLimiter) (endpoint : Bytes) (now : ℚ) : ℚ :=
  now + (limiter.reservation endpoint now).1

inductive Call
  | reserve (endpoint : Bytes) (now : ℚ)
  | penalize (endpoint : Bytes) (now : ℚ) (retryAfter : ℤ) (global : Bool)
  deriving DecidableEq

def Call.now : Call → ℚ
  | .reserve _ now => now
  | .penalize _ now _ _ => now

def step (limiter : RateLimiter) : Call → RateLimiter
  | .reserve endpoint now => (limiter.reserve endpoint now).2
  | .penalize endpoint now retryAfter global => limiter.penalize endpoint now retryAfter global

def releases : RateLimiter → List Call → List (Bytes × ℚ)
  | _, [] => []
  | limiter, .reserve endpoint now :: calls =>
    (endpoint, limiter.release endpoint now) :: releases (limiter.step (.reserve endpoint now)) calls
  | limiter, .penalize endpoint now retryAfter global :: calls =>
    releases (limiter.step (.penalize endpoint now retryAfter global)) calls

structure Sound (policy : RateLimitPolicy) (limiter : RateLimiter) : Prop where
  global : limiter.global.Sound policy.globalRequestsPerMinute
  endpoints : ∀ endpoint bucket, limiter.endpoints.lookup endpoint = some bucket →
    ∃ limit, policy.endpointRequestsPerMinute.lookup endpoint = some limit ∧ bucket.Sound limit
  budgets : ∀ endpoint limit, policy.endpointRequestsPerMinute.lookup endpoint = some limit →
    ∃ bucket, limiter.endpoints.lookup endpoint = some bucket

def cooled (limiter : RateLimiter) (endpoint : Bytes) (now : ℚ) : ℚ :=
  ((limiter.endpointBlockedUntil.lookup endpoint).map (max now)).getD now

/-- The first time at which the endpoint itself has no objection: its cool-down is over and its own
budget, if it has one, holds a token. -/
def endpointReady (limiter : RateLimiter) (endpoint : Bytes) (now : ℚ) : ℚ :=
  max (limiter.cooled endpoint now) (((limiter.endpoints.lookup endpoint).map (·.ready now)).getD now)

def reserved (limiter : RateLimiter) (endpoint : Bytes) (now : ℚ) : RateLimiter :=
  { limiter with
    global := limiter.global.spent (limiter.global.ready now)
    endpoints := limiter.endpoints.adjust endpoint (·.spent (limiter.endpointReady endpoint now)) }

variable {policy : RateLimitPolicy} {limiter : RateLimiter} {endpoint : Bytes} {now : ℚ}

theorem now_le_cooled : now ≤ limiter.cooled endpoint now := by
  unfold cooled
  cases limiter.endpointBlockedUntil.lookup endpoint with
  | none => exact le_refl _
  | some time => exact le_max_left _ _

theorem cooled_le_endpointReady : limiter.cooled endpoint now ≤ limiter.endpointReady endpoint now :=
  le_max_left _ _

theorem ready_le_endpointReady {bucket : Bucket} (hb : limiter.endpoints.lookup endpoint = some bucket) :
    bucket.ready now ≤ limiter.endpointReady endpoint now := by
  simp only [endpointReady, hb, Option.map_some, Option.getD_some]
  exact le_max_right _ _

theorem blockedDelay_eq :
    (match limiter.endpointBlockedUntil.lookup endpoint with
      | some time => if now < time then time - now else 0
      | none => 0) = limiter.cooled endpoint now - now := by
  unfold cooled
  cases limiter.endpointBlockedUntil.lookup endpoint with
  | none => simp
  | some time =>
    simp only [Option.map_some, Option.getD_some]
    split_ifs with ht
    · rw [max_eq_right ht.le]
    · rw [max_eq_left (not_lt.mp ht), sub_self]

theorem reservation_eq (h : limiter.Sound policy) :
    limiter.reservation endpoint now
      = (max (limiter.global.ready now) (limiter.endpointReady endpoint now) - now,
          limiter.reserved endpoint now) := by
  have hglobal : (limiter.global.waitFor now).2.consumeAt (now + (limiter.global.waitFor now).1)
      = limiter.global.spent (limiter.global.ready now) := by
    rw [Bucket.consumeAt_waitFor h.global] <;> simp [Bucket.waitFor_eq h.global]
  unfold reservation reserved KeyedMap.adjust
  dsimp only
  rw [blockedDelay_eq, hglobal]
  cases hb : limiter.endpoints.lookup endpoint with
  | none =>
    have hready : limiter.endpointReady endpoint now = limiter.cooled endpoint now := by
      simp [endpointReady, hb, now_le_cooled]
    simp only [Bucket.waitFor_eq h.global, hready, max_sub_sub_right]
  | some bucket =>
    obtain ⟨limit, -, hsound⟩ := h.endpoints endpoint bucket hb
    have hdelay : max (limiter.cooled endpoint now - now) (bucket.waitFor now).1
        = limiter.endpointReady endpoint now - now := by
      simp [Bucket.waitFor_eq hsound, endpointReady, hb, max_sub_sub_right]
    have hspent : (bucket.waitFor now).2.consumeAt (limiter.endpointReady endpoint now)
        = bucket.spent (limiter.endpointReady endpoint now) :=
      Bucket.consumeAt_waitFor hsound (ready_le_endpointReady hb)
    simp only [hdelay, add_sub_cancel, hspent]
    simp only [Bucket.waitFor_eq h.global, max_sub_sub_right]

theorem release_eq (h : limiter.Sound policy) :
    limiter.release endpoint now = max (limiter.global.ready now) (limiter.endpointReady endpoint now) := by
  rw [release, reservation_eq h, add_sub_cancel]

theorem step_reserve (h : limiter.Sound policy) :
    limiter.step (.reserve endpoint now) = limiter.reserved endpoint now := by
  simp [step, reserve, reservation_eq h]

variable {clock : Option Bytes → ℚ}

theorem foldlM_makeBucket {entries : List ((_ : Bytes) × ℕ)}
    {before after : KeyedMap Bytes Bucket}
    (h : entries.foldlM (fun (endpoints : KeyedMap Bytes Bucket) entry => do
      let bucket ← makeBucket entry.2 (clock (some entry.1))
      pure (endpoints.insert entry.1 bucket)) before = some after) :
    (∀ endpoint bucket, after.lookup endpoint = some bucket →
        before.lookup endpoint = some bucket ∨
          ∃ limit, ⟨endpoint, limit⟩ ∈ entries ∧ makeBucket limit (clock (some endpoint)) = some bucket) ∧
      ∀ endpoint, ((before.lookup endpoint).isSome ∨ ∃ limit, ⟨endpoint, limit⟩ ∈ entries) →
        (after.lookup endpoint).isSome := by
  induction entries generalizing before with
  | nil =>
    cases h
    simp
  | cons entry entries ih =>
    obtain ⟨name, limit⟩ := entry
    simp only [List.foldlM_cons, Option.bind_eq_bind, Option.pure_def, Option.bind_assoc, Option.bind_some,
      Option.bind_eq_some_iff] at h
    obtain ⟨made, hmade, hrest⟩ := h
    obtain ⟨hfrom, hkept⟩ := ih hrest
    constructor
    · intro endpoint bucket hb
      rcases hfrom endpoint bucket hb with hin | ⟨other, hm, hmade'⟩
      · rw [KeyedMap.lookup_insert_eq] at hin
        split_ifs at hin with he
        · cases hin
          subst he
          exact Or.inr ⟨limit, by simp, hmade⟩
        · exact Or.inl hin
      · exact Or.inr ⟨other, List.mem_cons_of_mem _ hm, hmade'⟩
    · intro endpoint hin
      apply hkept
      rw [KeyedMap.lookup_insert_eq]
      by_cases he : endpoint = name
      · simp [he]
      · simpa [he] using hin

theorem ofPolicy_buckets (h : ofPolicy policy clock = some limiter) :
    makeBucket policy.globalRequestsPerMinute (clock none) = some limiter.global ∧
      (∀ endpoint bucket, limiter.endpoints.lookup endpoint = some bucket →
        ∃ limit, policy.endpointRequestsPerMinute.lookup endpoint = some limit ∧
          makeBucket limit (clock (some endpoint)) = some bucket) ∧
      ∀ endpoint limit, policy.endpointRequestsPerMinute.lookup endpoint = some limit →
        ∃ bucket, limiter.endpoints.lookup endpoint = some bucket := by
  simp only [ofPolicy, Option.bind_eq_bind, Option.pure_def, Option.bind_eq_some_iff, Option.some.injEq] at h
  obtain ⟨global, hglobal, endpoints, hendpoints, rfl⟩ := h
  obtain ⟨hfrom, hkept⟩ := foldlM_makeBucket hendpoints
  refine ⟨hglobal, ?_, ?_⟩
  · intro endpoint bucket hb
    rcases hfrom endpoint bucket hb with hin | ⟨limit, hm, hmade⟩
    · simp at hin
    · exact ⟨limit, (KeyedMap.mem_entries_iff _ _ _).mp hm, hmade⟩
  · intro endpoint limit hlimit
    exact Option.isSome_iff_exists.mp
      (hkept endpoint (Or.inr ⟨limit, (KeyedMap.mem_entries_iff _ _ _).mpr hlimit⟩))

theorem ofPolicy_sound (h : ofPolicy policy clock = some limiter) :
    limiter.Sound policy := by
  obtain ⟨hglobal, hfrom, hkept⟩ := ofPolicy_buckets h
  refine ⟨Bucket.makeBucket_sound hglobal, ?_, hkept⟩
  intro endpoint bucket hb
  obtain ⟨limit, hlimit, hmade⟩ := hfrom endpoint bucket hb
  exact ⟨limit, hlimit, Bucket.makeBucket_sound hmade⟩

theorem step_sound (h : limiter.Sound policy) (call : Call) : (limiter.step call).Sound policy := by
  cases call with
  | reserve endpoint now =>
    rw [step_reserve h]
    refine ⟨h.global.spent le_rfl, ?_, ?_⟩
    · intro other bucket hb
      simp only [reserved, KeyedMap.lookup_adjust, Option.map_eq_some_iff] at hb
      obtain ⟨before, hbefore, rfl⟩ := hb
      obtain ⟨limit, hlimit, hsound⟩ := h.endpoints other before hbefore
      refine ⟨limit, hlimit, ?_⟩
      split_ifs with he
      · subst he
        exact hsound.spent (ready_le_endpointReady hbefore)
      · exact hsound
    · intro other limit hlimit
      obtain ⟨bucket, hb⟩ := h.budgets other limit hlimit
      simp [reserved, KeyedMap.lookup_adjust, hb]
  | penalize endpoint now retryAfter global =>
    refine ⟨?_, ?_, ?_⟩
    · cases global
      · exact h.global
      · exact h.global.blocked _
    · intro other bucket hb
      simp only [step, penalize, KeyedMap.lookup_adjust, Option.map_eq_some_iff] at hb
      obtain ⟨before, hbefore, rfl⟩ := hb
      obtain ⟨limit, hlimit, hsound⟩ := h.endpoints other before hbefore
      refine ⟨limit, hlimit, ?_⟩
      split_ifs
      · exact hsound.blocked _
      · exact hsound
    · intro other limit hlimit
      obtain ⟨bucket, hb⟩ := h.budgets other limit hlimit
      simp [step, penalize, KeyedMap.lookup_adjust, hb]

theorem run_sound (h : limiter.Sound policy) (calls : List Call) :
    (Runs.run step limiter calls).Sound policy :=
  Runs.run_invariant step (I := Sound policy) (fun _ call hs _ => step_sound hs call) h
    (Runs.along_true step _ _)

def started (policy : RateLimitPolicy) : RateLimiter :=
  (ofPolicy policy (fun _ => 0)).getD { global := {}, endpoints := ∅ }

theorem ofPolicy_started (policy : RateLimitPolicy) (h : (ofPolicy policy (fun _ => 0)).isSome) :
    ofPolicy policy (fun _ => 0) = some (started policy) := by
  obtain ⟨limiter, hl⟩ := Option.isSome_iff_exists.mp h
  rw [started, hl, Option.getD_some]

end RateLimiter

end PredictFun.Net
