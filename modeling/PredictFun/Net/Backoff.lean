import PredictFun.Base.Runs
import PredictFun.Net.Reconnect

namespace PredictFun.Net.ReconnectBackoff

open Base

inductive Call
  | next
  | markStable
  deriving DecidableEq

def step (backoff : ReconnectBackoff) (call : ℤ × Call) : ReconnectBackoff :=
  match call.2 with
  | .next => (backoff.next call.1).2
  | .markStable => backoff.markStable

def recent (backoff : ReconnectBackoff) (now : ℤ) : List ℤ :=
  backoff.attempts.dropWhile
    (fun attempt => decide (nanoseconds backoff.policy.stormWindow < int64 (now - attempt))) ++ [now]

def doubled (policy : ReconnectPolicy) (current : ℤ) : ℤ :=
  if policy.maximum.tdiv 2 ≤ current then policy.maximum else min (current * 2) policy.maximum

inductive Decides (s : ReconnectBackoff) (now : ℤ) : ReconnectDecision × ReconnectBackoff → Prop
  | waits (h : now < s.cooldownUntil) :
      Decides s now (⟨(int64 (s.cooldownUntil - now) + 999999) / 1000000, true⟩, s)
  | storms (h : ¬now < s.cooldownUntil) (hfull : s.policy.stormAttempts < (s.recent now).length) :
      Decides s now (⟨s.policy.stormCooldown, true⟩,
        { s with attempts := [], cooldownUntil := int64 (now + nanoseconds s.policy.stormCooldown) })
  | retries (h : ¬now < s.cooldownUntil) (hroom : (s.recent now).length ≤ s.policy.stormAttempts) :
      Decides s now (⟨(s.jitter s.current).1, false⟩,
        { s with
          attempts := s.recent now
          randomState := (s.jitter s.current).2.randomState
          current := doubled s.policy s.current })

theorem next_decides (s : ReconnectBackoff) (now : ℤ) : Decides s now (s.next now) := by
  by_cases h : now < s.cooldownUntil
  · have he : s.next now = (⟨(int64 (s.cooldownUntil - now) + 999999) / 1000000, true⟩, s) := if_pos h
    rw [he]
    exact .waits h
  · by_cases hfull : s.policy.stormAttempts < (s.recent now).length
    · have he : s.next now = (⟨s.policy.stormCooldown, true⟩,
          { s with attempts := [], cooldownUntil := int64 (now + nanoseconds s.policy.stormCooldown) }) :=
        (if_neg h).trans (if_pos hfull)
      rw [he]
      exact .storms h hfull
    · have he : s.next now = (⟨(s.jitter s.current).1, false⟩,
          { s with
            attempts := s.recent now
            randomState := (s.jitter s.current).2.randomState
            current := doubled s.policy s.current }) := by
        refine (if_neg h).trans ((if_neg hfull).trans ?_)
        unfold jitter
        by_cases hp : s.policy.jitterPercent = 0
        · simp only [if_pos hp]
          rfl
        · simp only [if_neg hp]
          rfl
      rw [he]
      exact .retries h (not_lt.mp hfull)

structure Accepted (policy : ReconnectPolicy) : Prop where
  initial_pos : 0 < policy.initial
  initial_le : policy.initial ≤ policy.maximum
  maximum_le : policy.maximum ≤ (2 ^ 63 - 1) / 3
  jitter_le : policy.jitterPercent ≤ 100
  attempts_pos : 0 < policy.stormAttempts
  window_pos : 0 < policy.stormWindow
  cooldown_pos : 0 < policy.stormCooldown

theorem construct_ok {policy : ReconnectPolicy} {uniqueSeed : BitVec 64} {start : ReconnectBackoff}
    (h : construct policy uniqueSeed = .ok start) : Accepted policy ∧ ∃ seed, start = ofPolicy policy seed := by
  unfold construct at h
  generalize (if policy.jitterSeed = 0 then uniqueSeed else policy.jitterSeed) = seed at h
  split_ifs at h with hrange hlarge hjitter hstorm
  simp only [not_or, not_le, not_lt] at hrange hlarge hjitter hstorm
  exact ⟨⟨hrange.1, hrange.2, hlarge, hjitter, Nat.pos_of_ne_zero hstorm.1, hstorm.2.1, hstorm.2.2⟩, _, (Except.ok.inj h).symm⟩

section

/-- A signed operation whose result must fit. -/
def signed (n : ℤ) : Option ℤ := if -2 ^ 63 ≤ n ∧ n < 2 ^ 63 then some n else none

def checkedDelay (backoff : ReconnectBackoff) (base : ℤ) : Option ℤ :=
  if backoff.policy.jitterPercent = 0 then some base
  else do
    let random := nextRandom backoff.randomState
    let percent : ℤ := backoff.policy.jitterPercent
    let hundreds ← signed (base.tdiv 100 * percent)
    let rest ← signed (base.tmod 100 * percent)
    let span ← signed (hundreds + rest.tdiv 100)
    let width := BitVec.ofInt 64 span * 2 + 1
    let sample ← signed ((random % width).toNat : ℕ)
    let raised ← signed (base + sample)
    let candidate ← signed (raised - span)
    return if candidate < 1 then 1 else if backoff.policy.maximum < candidate then backoff.policy.maximum else candidate

def checkedDoubled (policy : ReconnectPolicy) (current : ℤ) : Option ℤ :=
  if policy.maximum.tdiv 2 ≤ current then some policy.maximum
  else do
    let twice ← signed (current * 2)
    return min twice policy.maximum

def jitterSpan (policy : ReconnectPolicy) (base : ℤ) : ℤ :=
  base.tdiv 100 * policy.jitterPercent + (base.tmod 100 * policy.jitterPercent).tdiv 100

theorem signed_eq {n : ℤ} (hl : -2 ^ 63 ≤ n) (hu : n < 2 ^ 63) : signed n = some n := if_pos ⟨hl, hu⟩

variable (policy : ReconnectPolicy) {base : ℤ}

/-- Hundreds and rest together are the percentage of the whole, rounded down. -/
theorem jitterSpan_bounds (hb : 0 ≤ base) :
    0 ≤ base.tdiv 100 * policy.jitterPercent ∧ 0 ≤ (base.tmod 100 * policy.jitterPercent).tdiv 100 ∧
      100 * jitterSpan policy base ≤ policy.jitterPercent * base := by
  have hp : (0 : ℤ) ≤ policy.jitterPercent := Int.natCast_nonneg _
  have hq : 0 ≤ base / 100 := Int.ediv_nonneg hb (by norm_num)
  have hr : 0 ≤ base % 100 := Int.emod_nonneg _ (by norm_num)
  have hrp : 0 ≤ base % 100 * policy.jitterPercent := mul_nonneg hr hp
  rw [jitterSpan, Int.tdiv_eq_ediv_of_nonneg hb, Int.tmod_eq_emod_of_nonneg hb, Int.tdiv_eq_ediv_of_nonneg hrp]
  refine ⟨mul_nonneg hq hp, Int.ediv_nonneg hrp (by norm_num), ?_⟩
  have hfloor := Int.mul_ediv_self_le (x := base % 100 * policy.jitterPercent) (k := 100) (by norm_num)
  calc 100 * (base / 100 * policy.jitterPercent + base % 100 * policy.jitterPercent / 100)
      = 100 * (base / 100) * policy.jitterPercent + 100 * (base % 100 * policy.jitterPercent / 100) := by ring
    _ ≤ 100 * (base / 100) * policy.jitterPercent + base % 100 * policy.jitterPercent := by omega
    _ = (100 * (base / 100) + base % 100) * policy.jitterPercent := by ring
    _ = policy.jitterPercent * base := by rw [Int.mul_ediv_add_emod, mul_comm]

variable {policy}

theorem jitterSpan_le (hb : 0 ≤ base) (hp : policy.jitterPercent ≤ 100) : 0 ≤ jitterSpan policy base ∧ jitterSpan policy base ≤ base := by
  obtain ⟨hq, hr, hle⟩ := jitterSpan_bounds policy hb
  constructor
  · exact add_nonneg hq hr
  · have hpercent : (policy.jitterPercent : ℤ) * base ≤ 100 * base := mul_le_mul_of_nonneg_right (by exact_mod_cast hp) hb
    omega

theorem rest_bounds (hb : 0 ≤ base) (hp : policy.jitterPercent ≤ 100) :
    0 ≤ base.tmod 100 * policy.jitterPercent ∧ base.tmod 100 * policy.jitterPercent ≤ 99 * 100 := by
  have hr : 0 ≤ base % 100 := Int.emod_nonneg _ (by norm_num)
  have hlt : base % 100 < 100 := Int.emod_lt_of_pos _ (by norm_num)
  rw [Int.tmod_eq_emod_of_nonneg hb]
  constructor
  · exact mul_nonneg hr (Int.natCast_nonneg _)
  · apply mul_le_mul (by omega) (by exact_mod_cast hp) (Int.natCast_nonneg _) (by norm_num)

theorem sample_le {span : ℤ} (hs : 0 ≤ span) (hu : span ≤ (2 ^ 63 - 1) / 3) (random : BitVec 64) :
    ((random % (BitVec.ofInt 64 span * 2 + 1)).toNat : ℤ) ≤ 2 * span ∧
      (random % (BitVec.ofInt 64 span * 2 + 1)).toInt = ((random % (BitVec.ofInt 64 span * 2 + 1)).toNat : ℕ) := by
  obtain ⟨n, rfl⟩ := Int.eq_ofNat_of_zero_le hs
  have htwo : (2 : BitVec 64).toNat = 2 := rfl
  have hone : (1 : BitVec 64).toNat = 1 := rfl
  have hwidth : (BitVec.ofInt 64 n * 2 + 1).toNat = 2 * n + 1 := by
    rw [BitVec.ofInt_natCast, BitVec.toNat_add, BitVec.toNat_mul, BitVec.toNat_ofNat, htwo, hone]
    omega
  have hlt : (random % (BitVec.ofInt 64 n * 2 + 1)).toNat < 2 * n + 1 := by
    rw [BitVec.toNat_umod, hwidth]
    exact Nat.mod_lt _ (by omega)
  constructor
  · omega
  · apply BitVec.toInt_eq_toNat_of_lt
    omega

def moved (policy : ReconnectPolicy) (base sample : ℤ) : ℤ :=
  if base + sample - jitterSpan policy base < 1 then 1
  else if policy.maximum < base + sample - jitterSpan policy base then policy.maximum
  else base + sample - jitterSpan policy base

def drawn (s : ReconnectBackoff) (base : ℤ) : BitVec 64 :=
  nextRandom s.randomState % (BitVec.ofInt 64 (jitterSpan s.policy base) * 2 + 1)

variable {s : ReconnectBackoff}

theorem jitter_eq (hp : s.policy.jitterPercent ≠ 0) (base : ℤ) :
    (s.jitter base).1 = moved s.policy base (drawn s base).toInt := by
  rw [jitter, if_neg hp]
  rfl

theorem moved_spec (ha : Accepted policy) (hb : 0 < base) (hmax : base ≤ policy.maximum) {sample : ℤ} (hs : 0 ≤ sample)
    (hle : sample ≤ 2 * jitterSpan policy base) :
    1 ≤ moved policy base sample ∧ moved policy base sample ≤ policy.maximum ∧
      |moved policy base sample - base| ≤ jitterSpan policy base := by
  obtain ⟨hspan, -⟩ := jitterSpan_le hb.le ha.jitter_le
  unfold moved
  refine ⟨?_, ?_, ?_⟩
  · split_ifs <;> omega
  · split_ifs <;> omega
  · rw [abs_le]
    split_ifs <;> omega

theorem checkedDelay_eq (ha : Accepted s.policy) (hb : 0 < base) (hmax : base ≤ s.policy.maximum)
    (hp : s.policy.jitterPercent ≠ 0) :
    checkedDelay s base = some (moved s.policy base (drawn s base).toNat) := by
  obtain ⟨hq, hr, -⟩ := jitterSpan_bounds s.policy hb.le
  obtain ⟨hspan, hspanle⟩ := jitterSpan_le hb.le ha.jitter_le
  obtain ⟨hrest, hrestle⟩ := rest_bounds hb.le ha.jitter_le
  have hlimit := ha.maximum_le
  obtain ⟨hsample, -⟩ := sample_le hspan (by omega) (nextRandom s.randomState)
  have hhundreds : base.tdiv 100 * s.policy.jitterPercent ≤ base := by
    rw [jitterSpan] at hspanle
    omega
  have hdrawn : (drawn s base).toNat ≤ 2 * jitterSpan s.policy base := hsample
  have hmul : signed (base.tdiv 100 * s.policy.jitterPercent) = some (base.tdiv 100 * s.policy.jitterPercent) :=
    signed_eq (by omega) (by omega)
  have hrem : signed (base.tmod 100 * s.policy.jitterPercent) = some (base.tmod 100 * s.policy.jitterPercent) :=
    signed_eq (by omega) (by omega)
  have hsum : signed (base.tdiv 100 * s.policy.jitterPercent + (base.tmod 100 * s.policy.jitterPercent).tdiv 100) =
      some (jitterSpan s.policy base) := signed_eq (by rw [← jitterSpan]; omega) (by rw [← jitterSpan]; omega)
  have hsampled : signed (drawn s base).toNat = some ((drawn s base).toNat : ℤ) := signed_eq (by omega) (by omega)
  have hraised : signed (base + (drawn s base).toNat) = some (base + (drawn s base).toNat) := signed_eq (by omega) (by omega)
  have hcandidate : signed (base + (drawn s base).toNat - jitterSpan s.policy base) =
      some (base + (drawn s base).toNat - jitterSpan s.policy base) := signed_eq (by omega) (by omega)
  rw [checkedDelay, if_neg hp]
  dsimp only
  rw [hmul, Option.bind_eq_bind, Option.bind_some, hrem, Option.bind_some, hsum, Option.bind_some]
  change (signed (drawn s base).toNat).bind _ = _
  rw [hsampled, Option.bind_some, hraised, Option.bind_some, hcandidate, Option.bind_some]
  rfl

theorem jitter_spec (ha : Accepted s.policy) (hb : 0 < base) (hmax : base ≤ s.policy.maximum) :
    1 ≤ (s.jitter base).1 ∧ (s.jitter base).1 ≤ s.policy.maximum ∧
      |(s.jitter base).1 - base| ≤ jitterSpan s.policy base ∧ checkedDelay s base = some (s.jitter base).1 := by
  obtain ⟨hspan, hspanle⟩ := jitterSpan_le hb.le ha.jitter_le
  by_cases hp : s.policy.jitterPercent = 0
  · have hj : s.jitter base = (base, s) := if_pos hp
    rw [hj, checkedDelay, if_pos hp]
    refine ⟨hb, hmax, ?_, rfl⟩
    simpa using hspan
  · have hlimit := ha.maximum_le
    obtain ⟨hsample, hexact⟩ := sample_le hspan (by omega) (nextRandom s.randomState)
    have hj : (s.jitter base).1 = moved s.policy base (drawn s base).toNat := by
      rw [jitter_eq hp]
      exact congrArg _ hexact
    obtain ⟨hlow, hhigh, hnear⟩ := moved_spec ha hb hmax (Int.natCast_nonneg _) hsample
    rw [hj, checkedDelay_eq ha hb hmax hp]
    exact ⟨hlow, hhigh, hnear, rfl⟩

theorem doubled_spec {current : ℤ} (ha : Accepted policy) (hc : 0 < current) (hmax : current ≤ policy.maximum) :
    min (2 * current) policy.maximum ≤ doubled policy current ∧
      doubled policy current ≤ min (2 * current + 1) policy.maximum ∧
      checkedDoubled policy current = some (doubled policy current) := by
  have hlimit := ha.maximum_le
  have hhalf : policy.maximum.tdiv 2 = policy.maximum / 2 := Int.tdiv_eq_ediv_of_nonneg (by omega)
  rw [doubled, checkedDoubled, hhalf]
  split_ifs with h
  · refine ⟨min_le_right _ _, ?_, rfl⟩
    omega
  · rw [signed_eq (by omega) (by omega)]
    refine ⟨?_, ?_, rfl⟩
    · omega
    · omega

end

structure InRange (policy : ReconnectPolicy) (s : ReconnectBackoff) : Prop where
  policy_eq : s.policy = policy
  initial_le : policy.initial ≤ s.current
  le_maximum : s.current ≤ policy.maximum

variable {policy : ReconnectPolicy} {s : ReconnectBackoff}

theorem doubled_mem (ha : Accepted policy) {current : ℤ} (hl : policy.initial ≤ current) (hu : current ≤ policy.maximum) :
    policy.initial ≤ doubled policy current ∧ doubled policy current ≤ policy.maximum := by
  have hpos := ha.initial_pos
  obtain ⟨hlow, hhigh, -⟩ := doubled_spec ha (hpos.trans_le hl) hu
  constructor
  · refine le_trans (le_min ?_ ha.initial_le) hlow
    omega
  · exact hhigh.trans (min_le_right _ _)

theorem InRange.step (ha : Accepted policy) (h : InRange policy s) (call : ℤ × Call) : InRange policy (step s call) := by
  obtain ⟨now, kind⟩ := call
  cases kind with
  | next =>
    have hd := next_decides s now
    change InRange policy (s.next now).2
    cases hnext : s.next now with
    | mk decision after =>
      rw [hnext] at hd
      cases hd with
      | waits hw => exact h
      | storms hw hfull => exact ⟨h.policy_eq, h.initial_le, h.le_maximum⟩
      | retries hw hroom =>
        obtain ⟨hlow, hhigh⟩ := doubled_mem ha h.initial_le h.le_maximum
        exact ⟨h.policy_eq, h.policy_eq ▸ hlow, h.policy_eq ▸ hhigh⟩
  | markStable =>
    have he : (s.markStable).current = policy.initial := congrArg ReconnectPolicy.initial h.policy_eq
    exact ⟨h.policy_eq, he.symm.le, he.le.trans ha.initial_le⟩

theorem run_inRange (ha : Accepted policy) (seed : BitVec 64) (calls : List (ℤ × Call)) :
    InRange policy (Runs.run step (ofPolicy policy seed) calls) :=
  Runs.run_invariant step (fun _ call h _ => h.step ha call) ⟨rfl, le_refl _, ha.initial_le⟩ (Runs.along_true step _ calls)

theorem delays_in_range {policy : ReconnectPolicy} {uniqueSeed : BitVec 64} {start : ReconnectBackoff}
    (h : construct policy uniqueSeed = .ok start) (calls : List (ℤ × Call)) :
    policy.initial ≤ (Runs.run step start calls).current ∧ (Runs.run step start calls).current ≤ policy.maximum ∧
      (Runs.run step start calls).markStable.current = policy.initial ∧
      ∀ now decision after, (Runs.run step start calls).next now = (decision, after) →
        (decision.stormCooldown = true → after.current = (Runs.run step start calls).current) ∧
        (decision.stormCooldown = false →
          min (2 * (Runs.run step start calls).current) policy.maximum ≤ after.current ∧
          after.current ≤ min (2 * (Runs.run step start calls).current + 1) policy.maximum ∧
          1 ≤ decision.delay ∧ decision.delay ≤ policy.maximum ∧
          100 * |decision.delay - (Runs.run step start calls).current| ≤
            policy.jitterPercent * (Runs.run step start calls).current ∧
          checkedDelay (Runs.run step start calls) (Runs.run step start calls).current = some decision.delay ∧
          checkedDoubled policy (Runs.run step start calls).current = some after.current) := by
  obtain ⟨ha, seed, rfl⟩ := construct_ok h
  have hs := run_inRange ha seed calls
  generalize Runs.run step (ofPolicy policy seed) calls = s at hs
  refine ⟨hs.initial_le, hs.le_maximum, congrArg ReconnectPolicy.initial hs.policy_eq, ?_⟩
  obtain ⟨rfl, hlow, hhigh⟩ := hs
  have hpos : 0 < s.current := ha.initial_pos.trans_le hlow
  intro now decision after hnext
  have hd := next_decides s now
  rw [hnext] at hd
  cases hd with
  | waits hw => exact ⟨fun _ => rfl, fun hf => nomatch hf⟩
  | storms hw hfull => exact ⟨fun _ => rfl, fun hf => nomatch hf⟩
  | retries hw hroom =>
    refine ⟨fun hf => (nomatch hf), fun _ => ?_⟩
    obtain ⟨hdlow, hdhigh, hdoubled⟩ := doubled_spec ha hpos hhigh
    obtain ⟨hone, hmax, hnear, hdelay⟩ := jitter_spec ha hpos hhigh
    refine ⟨hdlow, hdhigh, hone, hmax, ?_, hdelay, hdoubled⟩
    calc 100 * |(s.jitter s.current).1 - s.current| ≤ 100 * jitterSpan s.policy s.current := by omega
      _ ≤ s.policy.jitterPercent * s.current := (jitterSpan_bounds s.policy hpos.le).2.2

def extremePolicy : ReconnectPolicy :=
  { initial := 3074457345618258602, maximum := 3074457345618258602, jitterPercent := 100, jitterSeed := 7 }

theorem delays_in_range_extreme : ∃ start, construct extremePolicy 0 = .ok start ∧
    (Runs.run step start [(0, .next), (5, .next)]).current ≤ extremePolicy.maximum ∧
    1 ≤ ((Runs.run step start [(0, .next)]).next 5).1.delay := by
  have hc : construct extremePolicy 0 = .ok (ofPolicy extremePolicy 7) := by decide
  obtain ⟨-, -, -, hnext⟩ := delays_in_range hc [(0, .next)]
  refine ⟨_, hc, (delays_in_range hc _).2.1, ?_⟩
  exact ((hnext 5 _ _ rfl).2 (by decide)).2.2.1

end PredictFun.Net.ReconnectBackoff
